import Impresspress.Concurrent.Script
import Impresspress.Auth.Handlers

/-!
# Chains of proof

Every credential goes back to a password that was checked: a sign-in to the stored hash that it
read, a refresh and a new key to the credential that was presented, a new password to the one that
its request verified. A history says which credentials go back to a password older than the one
that a given change has stored, and how far that change has come.

## Main definitions

* `Auth.Chain`, `Auth.chain`: what goes back to the old password.
* `Auth.Behind`: an `auth_version` that the change's bump passes or has passed.
* `Auth.Spent`: a key that the change's revocation reaches or has reached.
* `Auth.Locked`: what holds of every history of the change and other requests.

## Main results

* `Auth.Locked.step`: it is kept by every call that keeps the order of the change.
-/

namespace Auth

open Concurrent Relational

/-- The call stored a password. -/
def storedPassword : (c : AuthCall) → AuthAnswer c → Bool
  | .updateCredential _, _ => true
  | .insertCredential _, stored => stored
  | _, _ => false

/-- The row of the key that the call created. -/
def createdKey : (c : AuthCall) → AuthAnswer c → Option ApiKeyRow
  | .insertKey .., row => row
  | _, _ => none

/-- The version that a token carries. -/
def Credential.authVersion : Credential → Option ℕ
  | access token => some token.authVersion
  | refresh token => some token.authVersion
  | apiKey _ => none

/-- What goes back to the old password: the password that is stored, what each request has
checked last, and the credentials that have been handed out. -/
structure Chain (ι : Type) where
  password : Bool
  checked : Option ι → Bool
  held : List Credential

/-- Moments of the change (`none`) and of the other requests. -/
abbrev AuthMoment (ι : Type) := Moment (Option ι) AuthStore AuthAnswer

abbrev AuthHistory (ι : Type) := History (Option ι) AuthStore AuthAnswer

variable {ι : Type}

/-- What goes back to the old password after a history. At the start everything does. -/
def chain [DecidableEq ι] (start : AuthStore) : AuthHistory ι → Chain ι
  | [] => ⟨true, fun _ => true, start.held⟩
  | m :: past =>
    let before := chain start past
    { password :=
        if storedPassword m.call m.answer then m.proc.isSome && before.checked m.proc
        else before.password
      checked :=
        match m.call with
        | .findCredential => Function.update before.checked m.proc before.password
        | .present credential =>
          Function.update before.checked m.proc (decide (credential ∈ before.held))
        | _ => before.checked
      held :=
        match m.call with
        | .respond response =>
          if before.checked m.proc then response.credentials ++ before.held else before.held
        | _ => before.held }

theorem password_chain_cons [DecidableEq ι] {start : AuthStore} (m : AuthMoment ι)
    (past : AuthHistory ι) : (chain start (m :: past)).password =
      if storedPassword m.call m.answer then m.proc.isSome && (chain start past).checked m.proc
      else (chain start past).password := rfl

/-- The change has stored its password. -/
def Wrote (past : AuthHistory ι) : Prop :=
  ∃ m ∈ past, m.proc = none ∧ storedPassword m.call m.answer = true

/-- The version that a moment of the change has brought the account to. -/
def bumpedTo (m : AuthMoment ι) : Option ℕ :=
  if m.proc.isNone && m.call == .bumpAuthVersion then some m.after.user.authVersion else none

/-- The version that the change has brought the account to. -/
def bumped (past : AuthHistory ι) : Option ℕ := past.findSome? bumpedTo

/-- The change has revoked the account's keys. -/
def KeysEnded (past : AuthHistory ι) : Prop :=
  ∃ m ∈ past, m.proc = none ∧ m.call = .revokeKeys

instance (past : AuthHistory ι) : Decidable (Wrote past) :=
  inferInstanceAs (Decidable (∃ m ∈ past, m.proc = none ∧ storedPassword m.call m.answer = true))

theorem Wrote.cons {past : AuthHistory ι} (h : Wrote past) (m : AuthMoment ι) :
    Wrote (m :: past) :=
  h.imp fun _ hm => ⟨List.mem_cons_of_mem _ hm.1, hm.2⟩

theorem KeysEnded.cons {past : AuthHistory ι} (h : KeysEnded past) (m : AuthMoment ι) :
    KeysEnded (m :: past) :=
  h.imp fun _ hm => ⟨List.mem_cons_of_mem _ hm.1, hm.2⟩

theorem keysEnded_cons_iff {m : AuthMoment ι} {past : AuthHistory ι} : KeysEnded (m :: past) ↔
    m.proc = none ∧ m.call = .revokeKeys ∨ KeysEnded past := by
  simp [KeysEnded]

theorem bumped_cons_ne_none {past : AuthHistory ι} (h : bumped past ≠ none) (m : AuthMoment ι) :
    bumped (m :: past) ≠ none := by
  unfold bumped at h ⊢
  rw [List.findSome?_cons]
  cases bumpedTo m with
  | none => exact h
  | some version => exact Option.some_ne_none _

section Store

variable {chance : AuthChance} {c : AuthCall} {s : AuthStore}

theorem authVersion_perform : (perform chance c s).2.user.authVersion =
    if c = .bumpAuthVersion then s.user.authVersion + 1 else s.user.authVersion := by
  cases c with
  | insertCredential => cases h : s.passwordHash <;> simp [perform, h]
  | insertKey name keyHash expiresAt =>
    cases h : s.apiKeys.insert ⟨s.nextRandom, name, keyHash, expiresAt, none⟩ <;>
      simp [perform, h]
  | takeResetToken tokenHash =>
    by_cases h : s.user.resetToken = tokenHash <;> simp [perform, h]
  | restoreResetToken tokenHash =>
    by_cases h : s.user.resetToken = "" <;> simp [perform, h]
  | _ => simp [perform]

theorem nextRandom_perform : s.nextRandom ≤ (perform chance c s).2.nextRandom := by
  cases c with
  | insertCredential => cases h : s.passwordHash <;> simp [perform, h]
  | insertKey name keyHash expiresAt =>
    cases h : s.apiKeys.insert ⟨s.nextRandom, name, keyHash, expiresAt, none⟩ <;>
      simp [perform, h]
  | takeResetToken tokenHash =>
    by_cases h : s.user.resetToken = tokenHash <;> simp [perform, h]
  | restoreResetToken tokenHash =>
    by_cases h : s.user.resetToken = "" <;> simp [perform, h]
  | _ => simp [perform]

/-- `later` is the same key as `row`, and revoked if that is. -/
structure Later (row later : ApiKeyRow) : Prop where
  id : later.id = row.id
  keyHash : later.keyHash = row.keyHash
  revoked : row.isRevoked = true → later.isRevoked = true

theorem Later.refl (row : ApiKeyRow) : Later row row := ⟨rfl, rfl, fun h => h⟩

theorem later_revokeLive (row : ApiKeyRow) (now : ℕ) : Later row (row.revokeLive now) := by
  unfold ApiKeyRow.revokeLive
  split
  · exact .refl row
  · exact ⟨rfl, rfl, fun _ => rfl⟩

theorem isRevoked_revokeLive (row : ApiKeyRow) (now : ℕ) : (row.revokeLive now).isRevoked = true := by
  unfold ApiKeyRow.revokeLive
  split
  · assumption
  · rfl

theorem later_revokeOnly (row : ApiKeyRow) (id now : ℕ) : Later row (row.revokeOnly id now) := by
  unfold ApiKeyRow.revokeOnly
  split
  · exact ⟨rfl, rfl, fun _ => rfl⟩
  · exact .refl row

/-- What a call makes of the keys: nothing, a revocation, or a new row. -/
theorem apiKeys_perform :
    (perform chance c s).2.apiKeys = s.apiKeys ∨
      (c = .revokeKeys ∧ (perform chance c s).2.apiKeys =
        s.apiKeys.adjust (.revokeLive (s.clock + chance.elapsed)) (keeps_revokeLive _)) ∨
      (∃ id, c = .revokeKey id ∧ (perform chance c s).2.apiKeys =
        s.apiKeys.adjust (.revokeOnly id (s.clock + chance.elapsed)) (keeps_revokeOnly _ _)) ∨
      ∃ name keyHash expiresAt, c = .insertKey name keyHash expiresAt ∧
        s.apiKeys.insert ⟨s.nextRandom, name, keyHash, expiresAt, none⟩ =
          some (perform chance c s).2.apiKeys := by
  cases c with
  | revokeKeys => exact .inr (.inl ⟨rfl, rfl⟩)
  | revokeKey id => exact .inr (.inr (.inl ⟨id, rfl, rfl⟩))
  | insertKey name keyHash expiresAt =>
    cases h : s.apiKeys.insert ⟨s.nextRandom, name, keyHash, expiresAt, none⟩ with
    | none => exact .inl (by simp [perform, h])
    | some apiKeys =>
      exact .inr (.inr (.inr ⟨name, keyHash, expiresAt, rfl, by simp [perform, h]⟩))
  | insertCredential => cases h : s.passwordHash <;> exact .inl (by simp [perform, h])
  | takeResetToken tokenHash =>
    by_cases h : s.user.resetToken = tokenHash <;> exact .inl (by simp [perform, h])
  | restoreResetToken tokenHash =>
    by_cases h : s.user.resetToken = "" <;> exact .inl (by simp [perform, h])
  | _ => exact .inl rfl

/-- A key stays, and stays revoked. -/
theorem key_stays {row : ApiKeyRow} (h : row ∈ s.apiKeys.rows) :
    ∃ later ∈ (perform chance c s).2.apiKeys.rows, Later row later := by
  rcases apiKeys_perform (c := c) (s := s) with
    hsame | ⟨-, hrevoked⟩ | ⟨id, -, hrevoked⟩ | ⟨name, keyHash, expiresAt, -, hinsert⟩
  · exact ⟨row, hsame ▸ h, .refl row⟩
  · exact ⟨_, hrevoked ▸ Table.mem_adjust.mpr ⟨row, h, rfl⟩, later_revokeLive row _⟩
  · exact ⟨_, hrevoked ▸ Table.mem_adjust.mpr ⟨row, h, rfl⟩, later_revokeOnly row _ _⟩
  · exact ⟨row, (Table.mem_insert hinsert).mpr (.inl h), .refl row⟩

/-- A key that is there was there before, or has just been created under a digest of its own. -/
theorem key_was {later : ApiKeyRow} (h : later ∈ (perform chance c s).2.apiKeys.rows) :
    (∃ row ∈ s.apiKeys.rows, Later row later) ∨
      ∃ name keyHash expiresAt, c = .insertKey name keyHash expiresAt ∧
        later = ⟨s.nextRandom, name, keyHash, expiresAt, none⟩ ∧
        ∀ row ∈ s.apiKeys.rows, row.keyHash ≠ keyHash := by
  rcases apiKeys_perform (c := c) (s := s) with
    hsame | ⟨-, hrevoked⟩ | ⟨id, -, hrevoked⟩ | ⟨name, keyHash, expiresAt, hcall, hinsert⟩
  · exact .inl ⟨later, hsame ▸ h, .refl later⟩
  · obtain ⟨row, hrow, rfl⟩ := Table.mem_adjust.mp (hrevoked ▸ h)
    exact .inl ⟨row, hrow, later_revokeLive row _⟩
  · obtain ⟨row, hrow, rfl⟩ := Table.mem_adjust.mp (hrevoked ▸ h)
    exact .inl ⟨row, hrow, later_revokeOnly row _ _⟩
  · rcases (Table.mem_insert hinsert).mp h with hrow | rfl
    · exact .inl ⟨later, hrow, .refl later⟩
    · refine .inr ⟨name, keyHash, expiresAt, hcall, rfl, fun row hrow heq => ?_⟩
      have hclash := ((Table.rows_insert hinsert).2 row hrow).2.1
      simp [apiKeySchema, heq] at hclash

/-- After the revocation of all keys every key is revoked. -/
theorem revoked_of_revokeKeys {later : ApiKeyRow}
    (h : later ∈ (perform chance .revokeKeys s).2.apiKeys.rows) : later.isRevoked = true := by
  obtain ⟨row, -, rfl⟩ := Table.mem_adjust.mp (show later ∈ (s.apiKeys.adjust
    (.revokeLive (s.clock + chance.elapsed)) (keeps_revokeLive _)).rows from h)
  exact isRevoked_revokeLive row _

theorem revoked_of_revokeKey {id : ℕ} {later : ApiKeyRow}
    (h : later ∈ (perform chance (.revokeKey id) s).2.apiKeys.rows) (hid : later.id = id) :
    later.isRevoked = true := by
  obtain ⟨row, -, rfl⟩ := Table.mem_adjust.mp (show later ∈ (s.apiKeys.adjust
    (.revokeOnly id (s.clock + chance.elapsed)) (keeps_revokeOnly _ _)).rows from h)
  unfold ApiKeyRow.revokeOnly at hid ⊢
  split
  · rfl
  · rename_i hne
    rw [if_neg hne] at hid
    exact absurd hid hne

/-- What is known of a key that has just been created. -/
theorem inserted {name : String} {keyHash : ℕ} {expiresAt : KeyExpiry} {row : ApiKeyRow}
    (h : (perform chance (.insertKey name keyHash expiresAt) s).1 = some row) :
    row.id < (perform chance (.insertKey name keyHash expiresAt) s).2.nextRandom ∧
      row.keyHash = keyHash ∧
      row ∈ (perform chance (.insertKey name keyHash expiresAt) s).2.apiKeys.rows := by
  cases hinsert : s.apiKeys.insert ⟨s.nextRandom, name, keyHash, expiresAt, none⟩ with
  | none => simp [perform, hinsert] at h
  | some apiKeys =>
    simp only [perform, hinsert, Option.some.injEq] at h ⊢
    subst h
    exact ⟨Nat.lt_succ_self _, rfl, (Table.mem_insert hinsert).mpr (.inr rfl)⟩

/-- Keys with the same digest are the same key. -/
theorem eq_of_keyHash_eq (keys : Table apiKeySchema) {a b : ApiKeyRow} (ha : a ∈ keys.rows)
    (hb : b ∈ keys.rows) (h : a.keyHash = b.keyHash) : a = b := by
  by_contra hne
  have hclash := keys.clash_eq_false ha hb fun hid => hne (keys.eq_of_key_eq ha hb hid)
  simp [apiKeySchema, h] at hclash

end Store

/-- The version is one that the change's bump passes. -/
def Behind (start : AuthStore) (past : AuthHistory ι) (version : ℕ) : Prop :=
  version ≤ (past.store start).user.authVersion ∧ ∀ b, bumped past = some b → version < b

/-- The change's revocation of keys reaches the keys with the digest: there is one already, or a
new key cannot get it. -/
def Spent (start : AuthStore) (past : AuthHistory ι) (keyHash : ℕ) : Prop :=
  (keyHash < start.nextRandom ∨ ∃ row ∈ (past.store start).apiKeys.rows, row.keyHash = keyHash) ∧
    (KeysEnded past → ∀ row ∈ (past.store start).apiKeys.rows, row.keyHash = keyHash →
      row.isRevoked = true)

/-- The change's revocation of keys reaches the key with the id. -/
def KeyEnds (start : AuthStore) (past : AuthHistory ι) (id : ℕ) : Prop :=
  id < (past.store start).nextRandom ∧
    (KeysEnded past → ∀ row ∈ (past.store start).apiKeys.rows, row.id = id → row.isRevoked = true)

/-- The credential is one that the change puts an end to. -/
def Ends (start : AuthStore) (past : AuthHistory ι) : Credential → Prop
  | .access token => Behind start past token.authVersion
  | .refresh token => Behind start past token.authVersion
  | .apiKey key => Spent start past key

variable [DecidableEq ι] {start : AuthStore} {past : AuthHistory ι} {m : AuthMoment ι}

/-- What holds of every history: the change keeps its order, the stored password does not go back
to the old one once the change has stored its own, and what goes back to it the change ends. -/
structure Locked (start : AuthStore) (past : AuthHistory ι) : Prop where
  wrote : bumped past ≠ none → Wrote past
  bump : KeysEnded past → bumped past ≠ none
  version : ∀ b, bumped past = some b → b ≤ (past.store start).user.authVersion
  password : Wrote past → (chain start past).password = false
  ends : ∀ credential ∈ (chain start past).held, Ends start past credential
  ids : ∀ row ∈ (past.store start).apiKeys.rows, row.id < (past.store start).nextRandom
  fresh : start.nextRandom ≤ (past.store start).nextRandom

/-- A store at which a history may start: the tokens carry no version from the future, and what is
drawn later is new. -/
structure Begun (start : AuthStore) : Prop where
  versions : ∀ credential ∈ start.held, ∀ version, credential.authVersion = some version →
    version ≤ start.user.authVersion
  keys : ∀ key, .apiKey key ∈ start.held → key < start.nextRandom
  ids : ∀ row ∈ start.apiKeys.rows, row.id < start.nextRandom

omit [DecidableEq ι] in
theorem not_keysEnded_nil : ¬ KeysEnded ([] : AuthHistory ι) := fun ⟨_, h, _⟩ => nomatch h

theorem Begun.locked (h : Begun start) : Locked start ([] : AuthHistory ι) where
  wrote hbumped := absurd rfl hbumped
  bump hended := absurd hended not_keysEnded_nil
  version _ hbumped := nomatch hbumped
  password := fun ⟨_, hm, _⟩ => nomatch hm
  ends credential hheld := by
    cases credential with
    | access token | refresh token => exact ⟨h.versions _ hheld _ rfl, fun _ hb => nomatch hb⟩
    | apiKey key => exact ⟨.inl (h.keys key hheld), fun hended => absurd hended not_keysEnded_nil⟩
  ids := h.ids
  fresh := Nat.le_refl _

section Step

variable (hbefore : m.before = past.store start) (hm : m.Happened perform)

include hbefore hm

omit [DecidableEq ι] in
theorem authVersion_after : m.after.user.authVersion =
    if m.call = .bumpAuthVersion then (past.store start).user.authVersion + 1
    else (past.store start).user.authVersion := by
  obtain ⟨chance, -, hafter⟩ := hm
  rw [hafter, authVersion_perform, hbefore]

omit [DecidableEq ι] in
theorem authVersion_le_after : (past.store start).user.authVersion ≤ m.after.user.authVersion := by
  rw [authVersion_after hbefore hm]
  split <;> omega

omit [DecidableEq ι] in
theorem bumpedTo_eq {b : ℕ} (h : bumpedTo m = some b) :
    m.proc = none ∧ m.call = .bumpAuthVersion ∧ b = m.after.user.authVersion ∧
      b = (past.store start).user.authVersion + 1 := by
  unfold bumpedTo at h
  split at h
  · rename_i hcase
    obtain ⟨hproc, hcall⟩ := Bool.and_eq_true_iff.mp hcase
    have hcall' : m.call = .bumpAuthVersion := by simpa using hcall
    obtain rfl := Option.some.inj h
    exact ⟨Option.isNone_iff_eq_none.mp hproc, hcall', rfl,
      by rw [authVersion_after hbefore hm, if_pos hcall']⟩
  · cases h

omit [DecidableEq ι] in
theorem Behind.step {version : ℕ} (h : Behind start past version) :
    Behind start (m :: past) version := by
  refine ⟨h.1.trans (authVersion_le_after hbefore hm), fun b hb => ?_⟩
  unfold bumped at hb
  rw [List.findSome?_cons] at hb
  cases hcase : bumpedTo m with
  | none =>
    rw [hcase] at hb
    exact h.2 b hb
  | some b' =>
    rw [hcase] at hb
    obtain rfl := Option.some.inj hb
    have hb' := (bumpedTo_eq hbefore hm hcase).2.2.2
    have hle := h.1
    omega

omit [DecidableEq ι] in
theorem nextRandom_le_after : (past.store start).nextRandom ≤ m.after.nextRandom := by
  obtain ⟨chance, -, hafter⟩ := hm
  rw [hafter, ← hbefore]
  exact nextRandom_perform

omit [DecidableEq ι] in
/-- A key stays, and stays revoked. -/
theorem key_after {row : ApiKeyRow} (h : row ∈ (past.store start).apiKeys.rows) :
    ∃ later ∈ m.after.apiKeys.rows, Later row later := by
  obtain ⟨chance, -, hafter⟩ := hm
  rw [hafter]
  exact key_stays (hbefore ▸ h)

omit [DecidableEq ι] in
/-- A key was there before, or has just been created. -/
theorem key_before {later : ApiKeyRow} (h : later ∈ m.after.apiKeys.rows) :
    (∃ row ∈ (past.store start).apiKeys.rows, Later row later) ∨
      ∃ name keyHash expiresAt, m.call = .insertKey name keyHash expiresAt ∧
        later.id = (past.store start).nextRandom ∧ later.keyHash = keyHash ∧
        later.id < m.after.nextRandom ∧
        ∀ row ∈ (past.store start).apiKeys.rows, row.keyHash ≠ keyHash := by
  obtain ⟨chance, -, hafter⟩ := hm
  rw [hafter] at h ⊢
  rw [← hbefore]
  rcases key_was h with hold | ⟨name, keyHash, expiresAt, hcall, rfl, hfresh⟩
  · exact .inl hold
  · refine .inr ⟨name, keyHash, expiresAt, hcall, rfl, rfl, ?_, hfresh⟩
    rw [hcall] at h ⊢
    cases hinsert : m.before.apiKeys.insert
        ⟨m.before.nextRandom, name, keyHash, expiresAt, none⟩ with
    | none => 
      simp only [perform, hinsert] at h
      exact absurd rfl (hfresh _ h)
    | some apiKeys => simp [perform, hinsert]

omit [DecidableEq ι] hbefore in
/-- The moment at which the change revokes the keys revokes every key. -/
theorem revoked_after (hcall : m.call = .revokeKeys) {row : ApiKeyRow}
    (h : row ∈ m.after.apiKeys.rows) : row.isRevoked = true := by
  obtain ⟨chance, -, hafter⟩ := hm
  rw [hafter, hcall] at h
  exact revoked_of_revokeKeys h

omit [DecidableEq ι] in
theorem KeyEnds.step {id : ℕ} (h : KeyEnds start past id) : KeyEnds start (m :: past) id := by
  refine ⟨h.1.trans_le (nextRandom_le_after hbefore hm), fun hended later hlater hid => ?_⟩
  rcases keysEnded_cons_iff.mp hended with ⟨-, hcall⟩ | hended
  · exact revoked_after hm hcall hlater
  · rcases key_before hbefore hm hlater with ⟨row, hrow, hlater⟩ | ⟨-, -, -, -, hnew, -, -, -⟩
    · exact hlater.revoked (h.2 hended row hrow (hlater.id.symm.trans hid))
    · exact absurd (hnew.symm.trans hid) (Nat.ne_of_gt h.1)

omit [DecidableEq ι] in
theorem Spent.step {keyHash : ℕ} (h : Spent start past keyHash)
    (hnew : ∀ name key expiresAt, m.call = .insertKey name key expiresAt → start.nextRandom ≤ key) :
    Spent start (m :: past) keyHash := by
  constructor
  · rcases h.1 with hlt | ⟨row, hrow, rfl⟩
    · exact .inl hlt
    · obtain ⟨later, hlater, hsame⟩ := key_after hbefore hm hrow
      exact .inr ⟨later, hlater, hsame.keyHash⟩
  · intro hended later hlater hkey
    rcases keysEnded_cons_iff.mp hended with ⟨-, hcall⟩ | hended
    · exact revoked_after hm hcall hlater
    · rcases key_before hbefore hm hlater with
        ⟨row, hrow, hsame⟩ | ⟨name, key, expiresAt, hcall, -, hkey', -, hfresh⟩
      · exact hsame.revoked (h.2 hended row hrow (hsame.keyHash.symm.trans hkey))
      · have hkey : key = keyHash := hkey'.symm.trans hkey
        rcases h.1 with hlt | ⟨row, hrow, hrowkey⟩
        · have hle := hnew name key expiresAt hcall
          omega
        · exact absurd (hrowkey.trans hkey.symm) (hfresh row hrow)

omit [DecidableEq ι] in
theorem Ends.step {credential : Credential} (h : Ends start past credential)
    (hnew : ∀ name key expiresAt, m.call = .insertKey name key expiresAt → start.nextRandom ≤ key) :
    Ends start (m :: past) credential := by
  cases credential with
  | access token | refresh token => exact Behind.step hbefore hm h
  | apiKey key => exact Spent.step hbefore hm h hnew

/-- What goes back to the old password after a moment. -/
theorem held_chain_cons {credential : Credential}
    (h : credential ∈ (chain start (m :: past)).held) :
    credential ∈ (chain start past).held ∨ (chain start past).checked m.proc = true ∧
      ∃ response, m.call = .respond response ∧ credential ∈ response.credentials := by
  obtain ⟨i, s, c, answer, after⟩ := m
  cases c with
  | respond response =>
    cases hchecked : (chain start past).checked i with
    | false =>
      simp only [chain, hchecked] at h
      exact .inl h
    | true =>
      simp only [chain, hchecked, if_true, List.mem_append] at h
      exact h.symm.imp id fun h => ⟨rfl, response, rfl, h⟩
  | _ => exact .inl h

theorem Locked.step (h : Locked start past)
    (hstored : storedPassword m.call m.answer = true → m.proc ≠ none → Wrote past →
      (chain start past).checked m.proc = false)
    (hbump : m.proc = none → m.call = .bumpAuthVersion → Wrote past)
    (hkeys : m.proc = none → m.call = .revokeKeys → bumped past ≠ none)
    (hnew : ∀ name key expiresAt, m.call = .insertKey name key expiresAt → start.nextRandom ≤ key)
    (hanswer : ∀ response, m.call = .respond response → (chain start past).checked m.proc = true →
      ∀ credential ∈ response.credentials, Ends start past credential) :
    Locked start (m :: past) where
  wrote hbumped := by
    by_cases hpast : bumped past = none
    · unfold bumped at hbumped hpast
      rw [List.findSome?_cons] at hbumped
      cases hcase : bumpedTo m with
      | none =>
        rw [hcase] at hbumped
        exact absurd hpast hbumped
      | some b =>
        obtain ⟨hproc, hcall, -⟩ := bumpedTo_eq hbefore hm hcase
        exact (hbump hproc hcall).cons m
    · exact (h.wrote hpast).cons m
  bump hended := by
    rcases keysEnded_cons_iff.mp hended with ⟨hproc, hcall⟩ | hended
    · exact bumped_cons_ne_none (hkeys hproc hcall) m
    · exact bumped_cons_ne_none (h.bump hended) m
  version b hb := by
    unfold bumped at hb
    rw [List.findSome?_cons] at hb
    cases hcase : bumpedTo m with
    | none =>
      rw [hcase] at hb
      exact (h.version b hb).trans (authVersion_le_after hbefore hm)
    | some b' =>
      rw [hcase] at hb
      obtain rfl := Option.some.inj hb
      exact Nat.le_of_eq (bumpedTo_eq hbefore hm hcase).2.2.1
  password hwrote := by
    rw [password_chain_cons]
    by_cases hcase : storedPassword m.call m.answer = true
    · rw [if_pos hcase]
      cases hproc : m.proc with
      | none => rfl
      | some i =>
        rcases hwrote with ⟨m', hm', hproc', hstored'⟩
        have hpast : Wrote past := by
          rcases List.mem_cons.mp hm' with rfl | hm'
          · rw [hproc] at hproc'
            cases hproc'
          · exact ⟨m', hm', hproc', hstored'⟩
        have hchecked := hstored hcase (by simp [hproc]) hpast
        rw [hproc] at hchecked
        simp [hchecked]
    · rw [if_neg hcase]
      obtain ⟨m', hm', hproc', hstored'⟩ := hwrote
      rcases List.mem_cons.mp hm' with rfl | hm'
      · exact absurd hstored' hcase
      · exact h.password ⟨m', hm', hproc', hstored'⟩
  ends credential hheld := by
    rcases held_chain_cons hbefore hm hheld with hheld | ⟨hchecked, response, hcall, hmem⟩
    · exact (h.ends credential hheld).step hbefore hm hnew
    · exact (hanswer response hcall hchecked credential hmem).step hbefore hm hnew
  ids row hrow := by
    rcases key_before hbefore hm hrow with ⟨old, hold, hsame⟩ | ⟨-, -, -, -, -, -, hlt, -⟩
    · rw [hsame.id]
      exact (h.ids old hold).trans_le (nextRandom_le_after hbefore hm)
    · exact hlt
  fresh := h.fresh.trans (nextRandom_le_after hbefore hm)

end Step

end Auth
