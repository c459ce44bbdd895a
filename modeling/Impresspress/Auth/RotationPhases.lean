import Impresspress.Auth.Rotations

/-!
# Rotations and revocations side by side

What a request has done so far is a phase, and one invariant ties the phases of all requests to the
rows: a live row of a family that has been ended belongs to a rotation that will not hand its token
out.

## Main definitions

* `Auth.RotationPhase`: how far a request has come.
* `Auth.Rotations`: the invariant of any account.
* `Auth.OneLive`: the invariant of an account with one live row in each family.

## Main results

* `Auth.Rotations.framed`, `Auth.Rotations.inserted`, `Auth.Rotations.responded`: its steps.
-/

namespace Auth

open Concurrent

/-- How far a request has come. A `known` token is one that callers hold. A scope is one family, or
all of them; `replay` says that it is burnt for a replay. -/
inductive RotationPhase where
  | reading
  | known (token : RefreshToken)
  | found (row : TokenRow)
  | replaying (family : ℕ)
  | burning (replay : Bool) (scope : Option ℕ)
  | closed (scope : Option ℕ)
  | claimed (row : TokenRow)
  | drawn (row : TokenRow) (jti : ℕ)
  | written (token : RefreshToken)
  | stray (token : RefreshToken)
  | lost (token : RefreshToken)
  | established (token : RefreshToken)
  | handed (token : RefreshToken)
  | finished

namespace RotationPhase

/-- The nonce that the request has drawn. -/
def drew : RotationPhase → Option ℕ
  | drawn _ jti => some jti
  | written token | stray token | lost token | established token => some token.jti
  | _ => none

/-- The nonce that the request has drawn and will hand out later, if at all. -/
def secret : RotationPhase → Option ℕ
  | drawn _ jti => some jti
  | written token | stray token | lost token => some token.jti
  | _ => none

/-- The token whose row the request has inserted, and that it has not handed out. -/
def owes : RotationPhase → Option RefreshToken
  | written token | stray token | lost token => some token
  | _ => none

/-- The request has inserted a successor, or will not. -/
def Minted : RotationPhase → Prop
  | written _ | stray _ | lost _ | established _ | handed _ | finished => True
  | _ => False

/-- The row that the request has claimed, while its successor has not been inserted. -/
def minting : RotationPhase → Option TokenRow
  | claimed row | drawn row _ => some row
  | _ => none

theorem secret_of_owes {φ : RotationPhase} {token : RefreshToken} (h : φ.owes = some token) :
    φ.secret = some token.jti := by
  cases φ <;> cases h <;> rfl

theorem minted_of_owes {φ : RotationPhase} {token : RefreshToken} (h : φ.owes = some token) :
    φ.Minted := by
  cases φ <;> trivial

theorem drew_of_secret {φ : RotationPhase} {jti : ℕ} (h : φ.secret = some jti) :
    φ.drew = some jti := by
  cases φ <;> cases h <;> rfl

end RotationPhase

open RotationPhase

variable {ι : Type}

/-- The program claimed a row that had the family and the generation of `row`. -/
def ClaimedBy (i : ι) (past : FamilyHistory ι) (row : TokenRow) : Prop :=
  ∃ m ∈ past, m.proc = i ∧ claims m.call m.answer = some row.id ∧ ∃ r ∈ m.before.tokens,
    r.id = row.id ∧ r.family = row.family ∧ r.generation = row.generation

/-- What is known of `row` still holds of the row with its id. -/
def Describes (row : TokenRow) (s : AuthStore) : Prop :=
  row.id < s.nextRandom ∧ .refresh row.token ∈ s.held ∧ ∀ r ∈ s.tokens, r.id = row.id →
    r.token = row.token ∧ r.family = row.family ∧ r.generation = row.generation

/-- What a phase says of the history and the store. -/
def RotationPhase.Ok (i : ι) (past : FamilyHistory ι) (s : AuthStore) : RotationPhase → Prop
  | known token | handed token => .refresh token ∈ s.held
  | found row => Describes row s
  | burning _ scope => ∀ family, (∀ f ∈ scope, f = family) → SignedOut family past
  | closed scope => ∀ family, (∀ f ∈ scope, f = family) → FamilyEnded family past
  | claimed row | drawn row _ => ClaimedBy i past row
  | lost token => RevocationFailed token.family past
  | _ => True

/-- The request has read a revoked row of the family. -/
def ReadRevoked (i : ι) (family : ℕ) (past : FamilyHistory ι) : Prop :=
  ∃ m ∈ past, m.proc = i ∧ readsRevoked family m.call m.answer = true

/-- The answer that the token is revoked. -/
def revokedAnswer : FamilyCall :=
  .statement (.respond (.refused refreshTokenRevoked.1 refreshTokenRevoked.2))

/-- The request has answered that its token is revoked. -/
def RefusedAsRevoked (i : ι) (past : FamilyHistory ι) : Prop :=
  ∃ m ∈ past, m.proc = i ∧ m.call = revokedAnswer

/-- The request has found its row claimed by another one. -/
def LostClaim (i : ι) (past : FamilyHistory ι) : Prop :=
  ∃ m ∈ past, m.proc = i ∧ losesClaim m.call m.answer = true

/-- Nothing of the family will be rotated any more. -/
def Closed (family : ℕ) (past : FamilyHistory ι) : Prop := FamilyEnded family past ∨ FoundDead family past

theorem Closed.cons {family : ℕ} {past : FamilyHistory ι} (h : Closed family past)
    (m : FamilyMoment ι) : Closed family (m :: past) :=
  h.imp Or.inr fun h => h.cons m

/-- A replay is being dealt with. -/
def RotationPhase.Replays (family : ℕ) (φ : RotationPhase) : Prop :=
  φ = replaying family ∨ φ = burning true (some family)

/-- The request has inserted a row. -/
def Inserted (i : ι) (past : FamilyHistory ι) : Prop :=
  ∃ m ∈ past, m.proc = i ∧ inserts m.call m.answer ≠ none

/-- A row has, or a claimed row had, the nonce. -/
def Used (past : FamilyHistory ι) (s : AuthStore) (jti : ℕ) : Prop :=
  (∃ r ∈ s.tokens, r.token.jti = jti) ∨ ∃ m ∈ past, ∃ id, claims m.call m.answer = some id ∧
    ∃ r ∈ m.before.tokens, r.id = id ∧ r.token.jti = jti

/-- Rows, nonces and tokens come from one generator, and a row carries the family of its token. -/
structure Numbered (s : AuthStore) : Prop where
  rows : ∀ row ∈ s.tokens,
    row.id < s.nextRandom ∧ row.token.jti < s.nextRandom ∧ row.family = row.token.family
  ids : ∀ r ∈ s.tokens, ∀ r' ∈ s.tokens, r.id = r'.id → r = r'
  nonces : ∀ r ∈ s.tokens, ∀ r' ∈ s.tokens, r.token.jti = r'.token.jti → r = r'
  held : ∀ token, .refresh token ∈ s.held → token.jti < s.nextRandom

/-- What the requests have read, lost and answered shows in their phases. -/
structure Told (Φ : ι → RotationPhase) (past : FamilyHistory ι) : Prop where
  replays : ∀ i family, ReadRevoked i family past → (Φ i).Replays family ∨ Closed family past
  refused : ∀ i family, ReadRevoked i family past → RefusedAsRevoked i past → Closed family past
  answered : ∀ i, RefusedAsRevoked i past → Φ i = finished
  lost : ∀ i, LostClaim i past → Φ i = finished
  minted : ∀ i, Inserted i past → (Φ i).Minted

/-- What ties the phases to the rows. -/
structure Rotations (start : AuthStore) (Φ : ι → RotationPhase) (past : FamilyHistory ι) :
    Prop where
  numbered : Numbered (past.store start)
  told : Told Φ past
  ok : ∀ i, (Φ i).Ok i past (past.store start)
  drew : ∀ i jti, (Φ i).drew = some jti → jti < (past.store start).nextRandom
  apart : ∀ i j jti, (Φ i).drew = some jti → (Φ j).drew = some jti → i = j
  fresh : ∀ i row jti, Φ i = drawn row jti → ¬ Used past (past.store start) jti
  secret : ∀ i jti token, (Φ i).secret = some jti → .refresh token ∈ (past.store start).held →
    token.jti ≠ jti
  signedOut : ∀ family, SignedOut family past → ∀ row ∈ (past.store start).sessions,
    row.family ≠ family
  ended : ∀ family, FamilyEnded family past → ∀ row ∈ (past.store start).tokens, row.family = family →
    row.revoked = false → ∃ i, (Φ i).owes = some row.token
  spent : ∀ m ∈ past, ∀ id, claims m.call m.answer = some id → ∀ r ∈ m.before.tokens, r.id = id →
    r.token.jti < (past.store start).nextRandom ∧ ∀ row ∈ (past.store start).tokens,
      row.token.jti = r.token.jti → row.revoked = true

section Stability

variable {i : ι} {past : FamilyHistory ι} {m : FamilyMoment ι} {φ : RotationPhase}

theorem ClaimedBy.cons {row : TokenRow} (h : ClaimedBy i past row) : ClaimedBy i (m :: past) row :=
  h.imp fun _ hm => ⟨List.mem_cons_of_mem _ hm.1, hm.2⟩

theorem RotationPhase.Ok.keeps {s s' : AuthStore} (h : φ.Ok i past s)
    (hrandom : s.nextRandom ≤ s'.nextRandom) (hheld : ∀ credential ∈ s.held, credential ∈ s'.held)
    (htokens : ∀ r ∈ s'.tokens, ∃ old ∈ s.tokens, old.id = r.id ∧ old.token = r.token ∧
      old.family = r.family ∧ old.generation = r.generation) : φ.Ok i (m :: past) s' := by
  cases φ with
  | known token | handed token => exact hheld _ h
  | found row =>
    obtain ⟨hid, hknown, hsame⟩ := h
    refine ⟨hid.trans_le hrandom, hheld _ hknown, fun r hr hrid => ?_⟩
    obtain ⟨old, hold, hid', htoken, hfamily, hgeneration⟩ := htokens r hr
    rw [← htoken, ← hfamily, ← hgeneration]
    exact hsame old hold (hid'.trans hrid)
  | burning _ scope => exact fun family hscope => (h family hscope).cons m
  | closed scope => exact fun family hscope => .inr (h family hscope)
  | claimed row | drawn row _ => exact ClaimedBy.cons h
  | lost token => exact RevocationFailed.cons h m
  | _ => trivial

theorem RotationPhase.Ok.frame {s s' : AuthStore} (h : φ.Ok i past s) (hframe : Frame s s') :
    φ.Ok i (m :: past) s' := by
  refine h.keeps hframe.random (fun credential hmem => hframe.held ▸ hmem) fun r hr => ?_
  obtain ⟨old, hold, hid, htoken, hfamily, hgeneration, -⟩ := hframe.tokens.origin hr
  exact ⟨old, hold, hid, htoken, hfamily, hgeneration⟩

theorem readRevoked_cons_iff {family : ℕ} : ReadRevoked i family (m :: past) ↔
    m.proc = i ∧ readsRevoked family m.call m.answer = true ∨ ReadRevoked i family past := by
  simp [ReadRevoked]

theorem lostClaim_cons_iff : LostClaim i (m :: past) ↔
    m.proc = i ∧ losesClaim m.call m.answer = true ∨ LostClaim i past := by
  simp [LostClaim]

theorem refusedAsRevoked_cons_iff : RefusedAsRevoked i (m :: past) ↔
    m.proc = i ∧ m.call = revokedAnswer ∨ RefusedAsRevoked i past := by
  simp [RefusedAsRevoked]

theorem inserted_cons_iff : Inserted i (m :: past) ↔
    m.proc = i ∧ inserts m.call m.answer ≠ none ∨ Inserted i past := by
  simp [Inserted]

theorem readsRevoked_of_respond {family : ℕ} {response : Response}
    (h : m.call = .statement (.respond response)) :
    readsRevoked family m.call m.answer = false := by
  obtain ⟨i, s, c, answer, s'⟩ := m
  dsimp only at h
  subst h
  rfl

end Stability

variable [DecidableEq ι] {start : AuthStore} {Φ : ι → RotationPhase} {past : FamilyHistory ι}
  {m : FamilyMoment ι}

/-! ## What the requests have read and answered -/

/-- How the phase of a request may change at a call that it reads, loses or answers with. -/
structure TellChange (past : FamilyHistory ι) (m : FamilyMoment ι) (φ φ' : RotationPhase) :
    Prop where
  reads : ∀ family, readsRevoked family m.call m.answer = true → φ' = .replaying family
  replays : ∀ family, φ.Replays family → φ'.Replays family ∨ Closed family (m :: past)
  lost : losesClaim m.call m.answer = true → φ' = .finished
  refuses : m.call = revokedAnswer → φ' = .finished ∧ ∀ family, φ.Replays family → Closed family past
  finished : φ = .finished → φ' = .finished ∧ ∃ response, m.call = .statement (.respond response)
  minted : φ.Minted ∨ inserts m.call m.answer ≠ none → φ'.Minted

theorem Told.step (h : Told Φ past) {φ' : RotationPhase} (hphase : TellChange past m (Φ m.proc) φ') :
    Told (Function.update Φ m.proc φ') (m :: past) := by
  have hself : Function.update Φ m.proc φ' m.proc = φ' := Function.update_self ..
  have hother : ∀ {i}, i ≠ m.proc → Function.update Φ m.proc φ' i = Φ i := fun hi =>
    Function.update_of_ne hi ..
  refine ⟨fun i family hread => ?_, fun i family hread hrefused => ?_, fun i hrefused => ?_,
    fun i hlost => ?_, fun i hinserted => ?_⟩
  · rcases readRevoked_cons_iff.mp hread with ⟨rfl, hreads⟩ | hread
    · rw [hself]
      exact .inl (.inl (hphase.reads family hreads))
    · rcases h.replays i family hread with hreplays | hclosed
      · by_cases hi : i = m.proc
        · subst hi
          rw [hself]
          exact hphase.replays family hreplays
        · rw [hother hi]
          exact .inl hreplays
      · exact .inr (hclosed.cons m)
  · rcases refusedAsRevoked_cons_iff.mp hrefused with ⟨rfl, hanswer⟩ | hrefused
    · rcases readRevoked_cons_iff.mp hread with ⟨-, hreads⟩ | hread
      · rw [readsRevoked_of_respond hanswer] at hreads
        cases hreads
      · refine Closed.cons ?_ m
        rcases h.replays _ family hread with hreplays | hclosed
        · exact (hphase.refuses hanswer).2 family hreplays
        · exact hclosed
    · rcases readRevoked_cons_iff.mp hread with ⟨rfl, hreads⟩ | hread
      · obtain ⟨-, response, hrespond⟩ := hphase.finished (h.answered _ hrefused)
        rw [readsRevoked_of_respond hrespond] at hreads
        cases hreads
      · exact (h.refused i family hread hrefused).cons m
  · rcases refusedAsRevoked_cons_iff.mp hrefused with ⟨rfl, hanswer⟩ | hrefused
    · rw [hself]
      exact (hphase.refuses hanswer).1
    · by_cases hi : i = m.proc
      · subst hi
        rw [hself]
        exact (hphase.finished (h.answered _ hrefused)).1
      · rw [hother hi]
        exact h.answered i hrefused
  · rcases lostClaim_cons_iff.mp hlost with ⟨rfl, hloses⟩ | hlost
    · rw [hself]
      exact hphase.lost hloses
    · by_cases hi : i = m.proc
      · subst hi
        rw [hself]
        exact (hphase.finished (h.lost _ hlost)).1
      · rw [hother hi]
        exact h.lost i hlost
  · by_cases hi : i = m.proc
    · subst hi
      rw [hself]
      refine hphase.minted ((inserted_cons_iff.mp hinserted).symm.imp (h.minted _) fun h => h.2)
    · rw [hother hi]
      exact h.minted i ((inserted_cons_iff.mp hinserted).resolve_left fun h => hi h.1.symm)

/-! ## Calls that are framed -/

omit [DecidableEq ι] in
theorem Numbered.frame {s s' : AuthStore} (h : Numbered s) (hframe : Frame s s') : Numbered s' where
  rows row hrow := by
    obtain ⟨old, hold, hid, htoken, hfamily, -, -⟩ := hframe.tokens.origin hrow
    obtain ⟨hid', hjti, hsame⟩ := h.rows old hold
    rw [← hid, ← htoken, ← hfamily]
    exact ⟨hid'.trans_le hframe.random, hjti.trans_le hframe.random, hsame⟩
  ids r hr r' hr' hid := by
    refine hframe.tokens.unique (P := fun r r' => r.id = r'.id) h.ids hr hr' ?_
    intro q q' hq _ _ _ hq' _ _ _
    rw [hq, hq', hid]
  nonces r hr r' hr' hjti := by
    refine hframe.tokens.unique (P := fun r r' => r.token.jti = r'.token.jti) h.nonces hr hr' ?_
    intro q q' _ hq _ _ _ hq' _ _
    rw [hq, hq', hjti]
  held token htoken := by
    refine (h.held token ?_).trans_le hframe.random
    rw [← hframe.held]
    exact htoken

omit [DecidableEq ι] in
theorem Rotations.lt_of_used (h : Rotations start Φ past) {jti : ℕ}
    (hused : Used past (past.store start) jti) : jti < (past.store start).nextRandom := by
  rcases hused with ⟨r, hr, rfl⟩ | ⟨m, hm, id, hclaims, r, hr, hid, rfl⟩
  · exact (h.numbered.rows r hr).2.1
  · exact (h.spent m hm id hclaims r hr hid).1

omit [DecidableEq ι] in
/-- A call that adds no row uses no nonce. -/
theorem Used.of_thinned {s' : AuthStore} {jti : ℕ} (hbefore : m.before = past.store start)
    (hthinned : Thinned (past.store start).tokens s'.tokens) (hused : Used (m :: past) s' jti) :
    Used past (past.store start) jti := by
  rcases hused with ⟨r, hr, rfl⟩ | ⟨m', hm', id, hclaims, r, hr, hid, rfl⟩
  · obtain ⟨old, hold, -, htoken, -⟩ := hthinned.origin hr
    exact .inl ⟨old, hold, by rw [htoken]⟩
  · rcases List.mem_cons.mp hm' with rfl | hm'
    · exact .inl ⟨r, hbefore ▸ hr, rfl⟩
    · exact .inr ⟨m', hm', id, hclaims, r, hr, hid, rfl⟩

/-- How the phase of a request may change at a framed call. -/
structure PhaseChange (past : FamilyHistory ι) (m : FamilyMoment ι) (φ φ' : RotationPhase) : Prop
    extends TellChange past m φ φ' where
  ok : φ'.Ok m.proc (m :: past) m.after
  drew : ∀ jti, φ'.drew = some jti → φ.drew = some jti ∨
    m.before.nextRandom ≤ jti ∧ jti < m.after.nextRandom
  draws : ∀ row jti, φ' = drawn row jti → φ = drawn row jti ∨ m.before.nextRandom ≤ jti
  secret : ∀ jti, φ'.secret = some jti → φ.secret = some jti ∨ m.before.nextRandom ≤ jti
  owes : ∀ token, φ.owes = some token → φ'.owes = some token ∨ ∀ row ∈ m.after.tokens,
    row.token = token → FamilyEnded row.family (m :: past) → row.revoked = true

/-- A call that adds no row and hands nothing out keeps the invariant, if its phase changes as it
may. -/
theorem Rotations.framed (h : Rotations start Φ past) (hbefore : m.before = past.store start)
    (hm : m.Happened performFamily) (hframe : Frame m.before m.after) {φ' : RotationPhase}
    (hphase : PhaseChange past m (Φ m.proc) φ') :
    Rotations start (Function.update Φ m.proc φ') (m :: past) := by
  have hself : Function.update Φ m.proc φ' m.proc = φ' := Function.update_self ..
  have hother : ∀ {i}, i ≠ m.proc → Function.update Φ m.proc φ' i = Φ i := fun hi =>
    Function.update_of_ne hi ..
  rw [hbefore] at hframe
  have hrandom := hframe.random
  refine ⟨h.numbered.frame hframe, h.told.step hphase.toTellChange, fun i => ?_,
    fun i jti hdrew => ?_, fun i j jti hi hj => ?_, fun i row jti hi hused => ?_,
    fun i jti token hsecret hheld => ?_, fun family hout row hrow => ?_,
    fun family hended row hrow hfamily hlive => ?_, fun m' hm' id hclaims r hr hid => ?_⟩
  · by_cases hi : i = m.proc
    · subst hi
      rw [hself]
      exact hphase.ok
    · rw [hother hi]
      exact (h.ok i).frame hframe
  · by_cases hi : i = m.proc
    · subst hi
      rw [hself] at hdrew
      rcases hphase.drew jti hdrew with hold | hnew
      · exact (h.drew _ jti hold).trans_le hrandom
      · exact hnew.2
    · rw [hother hi] at hdrew
      exact (h.drew i jti hdrew).trans_le hrandom
  · have hclash : ∀ {k}, k ≠ m.proc → (Φ k).drew = some jti → φ'.drew = some jti →
        k = m.proc := by
      intro k hk hdrew hdrew'
      rcases hphase.drew jti hdrew' with hold | ⟨hnew, -⟩
      · exact h.apart k m.proc jti hdrew hold
      · rw [hbefore] at hnew
        exact absurd (h.drew k jti hdrew) (Nat.not_lt_of_le hnew)
    by_cases him : i = m.proc <;> by_cases hjm : j = m.proc
    · rw [him, hjm]
    · rw [him, hself] at hi
      rw [hother hjm] at hj
      exact absurd (hclash hjm hj hi) hjm
    · rw [hjm, hself] at hj
      rw [hother him] at hi
      exact absurd (hclash him hi hj) him
    · rw [hother him] at hi
      rw [hother hjm] at hj
      exact h.apart i j jti hi hj
  · have hold := hused.of_thinned hbefore hframe.tokens
    by_cases him : i = m.proc
    · subst him
      rw [hself] at hi
      rcases hphase.draws row jti hi with hi | hnew
      · exact h.fresh _ row jti hi hold
      · rw [hbefore] at hnew
        exact absurd (h.lt_of_used hold) (Nat.not_lt_of_le hnew)
    · rw [hother him] at hi
      exact h.fresh i row jti hi hold
  · have hheld' : .refresh token ∈ (past.store start).held := by
      rw [← hframe.held]
      exact hheld
    by_cases hi : i = m.proc
    · subst hi
      rw [hself] at hsecret
      rcases hphase.secret jti hsecret with hold | hnew
      · exact h.secret _ jti token hold hheld'
      · rw [hbefore] at hnew
        exact ((h.numbered.held token hheld').trans_le hnew).ne
    · rw [hother hi] at hsecret
      exact h.secret i jti token hsecret hheld'
  · rcases signedOut_cons_iff.mp hout with hends | hout
    · exact sessions_of_endsSession hm hends row hrow
    · obtain ⟨old, hold, hsame⟩ := hframe.sessions row hrow
      rw [← hsame]
      exact h.signedOut family hout old hold
  · have hended' := hended
    rcases hended with ⟨hrevokes, -⟩ | hended
    · rw [tokens_of_revokesRows hm hrevokes row hrow hfamily] at hlive
      cases hlive
    · obtain ⟨old, hold, -, htoken, hsame, -, hrevoked⟩ := hframe.tokens.origin hrow
      obtain ⟨i, howes⟩ := h.ended family hended old hold (hsame.trans hfamily) (hrevoked hlive)
      rw [htoken] at howes
      by_cases hi : i = m.proc
      · subst hi
        rcases hphase.owes row.token howes with howes | hrevokes
        · exact ⟨m.proc, by rw [hself]; exact howes⟩
        · rw [hrevokes row hrow rfl (hfamily ▸ hended')] at hlive
          cases hlive
      · exact ⟨i, by rw [hother hi]; exact howes⟩
  · rcases List.mem_cons.mp hm' with rfl | hmem
    · rw [hbefore] at hr
      refine ⟨(h.numbered.rows r hr).2.1.trans_le hrandom, fun row hrow hjti => ?_⟩
      obtain ⟨old, hold, hid', htoken, -, -, -⟩ := hframe.tokens.origin hrow
      obtain rfl := h.numbered.nonces old hold r hr (by rw [htoken, hjti])
      exact (tokens_of_claims hm hclaims).2 row hrow (hid' ▸ hid)
    · obtain ⟨hjti, hrevoked⟩ := h.spent m' hmem id hclaims r hr hid
      refine ⟨hjti.trans_le hrandom, fun row hrow hsame => ?_⟩
      obtain ⟨old, hold, -, htoken, -, -, hlive⟩ := hframe.tokens.origin hrow
      by_contra hnot
      have hold' := hrevoked old hold (by rw [htoken, hsame])
      rw [hlive (eq_false_of_ne_true hnot)] at hold'
      cases hold'

/-! ## Inserts and answers -/

/-- A call that is no revocation, no claim and no read of a row, and no refusal. -/
structure Plain (m : FamilyMoment ι) : Prop where
  sessions : ∀ family, endsSession family m.call m.answer = false
  rows : ∀ family, revokesRows family m.call m.answer = false
  claims : claims m.call m.answer = none
  reads : ∀ family, readsRevoked family m.call m.answer = false
  lost : losesClaim m.call m.answer = false
  refuses : m.call ≠ revokedAnswer

section Plain

omit [DecidableEq ι]

variable {family : ℕ}

theorem Plain.signedOut (hm : Plain m) (h : SignedOut family (m :: past)) :
    SignedOut family past :=
  (signedOut_cons_iff.mp h).resolve_left (by simp [hm.sessions])

theorem Plain.ended (hm : Plain m) (h : FamilyEnded family (m :: past)) : FamilyEnded family past :=
  h.resolve_left (by simp [hm.rows])

theorem Plain.mem_of_claims (hm : Plain m) {m' : FamilyMoment ι} {id : ℕ} (hm' : m' ∈ m :: past)
    (h : Auth.claims m'.call m'.answer = some id) : m' ∈ past := by
  refine (List.mem_cons.mp hm').resolve_left fun heq => ?_
  rw [heq, hm.claims] at h
  cases h

theorem Plain.tellChange (hm : Plain m) {φ φ' : RotationPhase}
    (hreplays : ∀ family, ¬ φ.Replays family) (hover : φ ≠ finished) (hminted : φ'.Minted) :
    TellChange past m φ φ' where
  reads family h := absurd ((hm.reads family).symm.trans h) Bool.false_ne_true
  replays family h := absurd h (hreplays family)
  lost h := absurd (hm.lost.symm.trans h) Bool.false_ne_true
  refuses h := absurd h hm.refuses
  finished h := absurd h hover
  minted _ := hminted

end Plain

omit [DecidableEq ι] in
/-- A row with a fresh id, and a nonce that no row has. -/
theorem Numbered.insert {s s' : AuthStore} (h : Numbered s) {token : RefreshToken}
    {generation expiresAt : ℕ} (hjti : token.jti < s.nextRandom)
    (hfresh : ∀ r ∈ s.tokens, r.token.jti ≠ token.jti) (hrandom : s'.nextRandom = s.nextRandom + 1)
    (hheld : s'.held = s.held) (htokens : s'.tokens = s.tokens ++
      [⟨s.nextRandom, token, token.family, generation, false, expiresAt⟩]) : Numbered s' := by
  have hmem : ∀ {r}, r ∈ s'.tokens → r ∈ s.tokens ∨
      r = ⟨s.nextRandom, token, token.family, generation, false, expiresAt⟩ := by
    intro r hr
    rw [htokens] at hr
    exact (List.mem_append.mp hr).imp_right List.mem_singleton.mp
  have hlt : ∀ {n}, n < s.nextRandom → n < s'.nextRandom := by
    intro n hn
    omega
  refine ⟨fun r hr => ?_, fun r hr r' hr' hid => ?_, fun r hr r' hr' hsame => ?_, fun t ht => ?_⟩
  · rcases hmem hr with hr | rfl
    · obtain ⟨hid, hjti', hfamily⟩ := h.rows r hr
      exact ⟨hlt hid, hlt hjti', hfamily⟩
    · exact ⟨hrandom ▸ Nat.lt_succ_self _, hlt hjti, rfl⟩
  · rcases hmem hr with hr | rfl <;> rcases hmem hr' with hr' | rfl
    · exact h.ids r hr r' hr' hid
    · exact absurd hid (h.rows r hr).1.ne
    · exact absurd hid.symm (h.rows r' hr').1.ne
    · rfl
  · rcases hmem hr with hr | rfl <;> rcases hmem hr' with hr' | rfl
    · exact h.nonces r hr r' hr' hsame
    · exact absurd hsame (hfresh r hr)
    · exact absurd hsame.symm (hfresh r' hr')
    · rfl
  · refine hlt (h.held t ?_)
    rwa [← hheld]

/-- The successor of a claimed row is inserted. -/
theorem Rotations.inserted (h : Rotations start Φ past) (hbefore : m.before = past.store start)
    (hplain : Plain m) {row : TokenRow} {token : RefreshToken} {generation expiresAt : ℕ}
    (hphase : Φ m.proc = .drawn row token.jti)
    (hafter : m.after.nextRandom = m.before.nextRandom + 1 ∧ m.after.held = m.before.held ∧
      m.after.sessions = m.before.sessions ∧ m.after.tokens = m.before.tokens ++
        [⟨m.before.nextRandom, token, token.family, generation, false, expiresAt⟩]) :
    Rotations start (Function.update Φ m.proc (.written token)) (m :: past) := by
  obtain ⟨hrandom, hheld, hsessions, htokens⟩ := hafter
  rw [hbefore] at hrandom hheld hsessions htokens
  have hself : Function.update Φ m.proc (.written token) m.proc = .written token :=
    Function.update_self ..
  have hother : ∀ {i}, i ≠ m.proc → Function.update Φ m.proc (.written token) i = Φ i :=
    fun hi => Function.update_of_ne hi ..
  have hdrawn : (Φ m.proc).drew = some token.jti := by
    rw [hphase]
    rfl
  have hfresh := h.fresh m.proc row token.jti hphase
  have hdrew : ∀ {i jti}, (Function.update Φ m.proc (.written token) i).drew = some jti →
      (Φ i).drew = some jti := by
    intro i jti hi
    by_cases him : i = m.proc
    · subst him
      rw [hself] at hi
      rw [hphase]
      exact hi
    · rwa [hother him] at hi
  have hmem : ∀ {r}, r ∈ m.after.tokens → r ∈ (past.store start).tokens ∨
      r = ⟨(past.store start).nextRandom, token, token.family, generation, false, expiresAt⟩ := by
    intro r hr
    rw [htokens] at hr
    exact (List.mem_append.mp hr).imp_right List.mem_singleton.mp
  have hlt : ∀ {n}, n < (past.store start).nextRandom → n < m.after.nextRandom := by
    intro n hn
    omega
  refine ⟨h.numbered.insert (h.drew m.proc token.jti hdrawn)
      (fun r hr hsame => hfresh (.inl ⟨r, hr, hsame⟩)) hrandom hheld htokens,
    h.told.step (hplain.tellChange ?_ ?_ trivial), fun i => ?_,
    fun i jti hi => hlt (h.drew i jti (hdrew hi)),
    fun i j jti hi hj => h.apart i j jti (hdrew hi) (hdrew hj), fun i row' jti hi hused => ?_,
    fun i jti t hsecret ht => ?_, fun family hout r hr => ?_,
    fun family hended r hr hfamily hlive => ?_, fun m' hm' id hclaims r hr hid => ?_⟩
  · rw [hphase]
    rintro family (h | h) <;> cases h
  · rw [hphase]
    nofun
  · by_cases hi : i = m.proc
    · subst hi
      rw [hself]
      trivial
    · rw [hother hi]
      have hok := h.ok i
      cases hφ : Φ i with
      | found known =>
        rw [hφ] at hok
        obtain ⟨hid, hknown, hsame⟩ := hok
        refine ⟨hlt hid, hheld ▸ hknown, fun r hr heq => ?_⟩
        rcases hmem hr with hr | rfl
        · exact hsame r hr heq
        · exact absurd heq.symm hid.ne
      | known t | handed t =>
        rw [hφ] at hok
        show Credential.refresh t ∈ m.after.held
        rw [hheld]
        exact hok
      | burning _ scope =>
        rw [hφ] at hok
        exact fun family hscope => (hok family hscope).cons m
      | closed scope =>
        rw [hφ] at hok
        exact fun family hscope => .inr (hok family hscope)
      | claimed row' | drawn row' _ =>
        rw [hφ] at hok
        exact ClaimedBy.cons hok
      | lost t =>
        rw [hφ] at hok
        exact RevocationFailed.cons hok m
      | _ => trivial
  · have him : i ≠ m.proc := by
      rintro rfl
      rw [hself] at hi
      cases hi
    rw [hother him] at hi
    rcases hused with ⟨r, hr, rfl⟩ | ⟨m', hm', id, hclaims, r, hr, hid, rfl⟩
    · rcases hmem hr with hr | rfl
      · exact h.fresh i row' _ hi (.inl ⟨r, hr, rfl⟩)
      · exact him (h.apart i m.proc token.jti (by rw [hi]; rfl) hdrawn)
    · exact h.fresh i row' _ hi
        (.inr ⟨m', hplain.mem_of_claims hm' hclaims, id, hclaims, r, hr, hid, rfl⟩)
  · have hheld' : .refresh t ∈ (past.store start).held := by
      rw [← hheld]
      exact ht
    by_cases hi : i = m.proc
    · subst hi
      rw [hself] at hsecret
      exact h.secret m.proc jti t (by rw [hphase]; exact hsecret) hheld'
    · rw [hother hi] at hsecret
      exact h.secret i jti t hsecret hheld'
  · refine h.signedOut family (hplain.signedOut hout) r ?_
    rw [← hsessions]
    exact hr
  · rcases hmem hr with hr | rfl
    · obtain ⟨i, howes⟩ := h.ended family (hplain.ended hended) r hr hfamily hlive
      have hi : i ≠ m.proc := by
        rintro rfl
        rw [hphase] at howes
        cases howes
      exact ⟨i, by rw [hother hi]; exact howes⟩
    · exact ⟨m.proc, by rw [hself]; rfl⟩
  · have hm'past := hplain.mem_of_claims hm' hclaims
    obtain ⟨hjti, hrevoked⟩ := h.spent m' hm'past id hclaims r hr hid
    refine ⟨hlt hjti, fun q hq hsame => ?_⟩
    rcases hmem hq with hq | rfl
    · exact hrevoked q hq hsame
    · exact absurd (.inr ⟨m', hm'past, id, hclaims, r, hr, hid, hsame.symm⟩) hfresh

omit [DecidableEq ι] in
theorem Numbered.handOut {s s' : AuthStore} (h : Numbered s)
    (hrandom : s'.nextRandom = s.nextRandom) (htokens : s'.tokens = s.tokens)
    (hheld : ∀ token, .refresh token ∈ s'.held → token.jti < s.nextRandom) : Numbered s' where
  rows := by
    rw [hrandom, htokens]
    exact h.rows
  ids := by
    rw [htokens]
    exact h.ids
  nonces := by
    rw [htokens]
    exact h.nonces
  held token htoken := by
    rw [hrandom]
    exact hheld token htoken

/-- An answer hands the tokens out whose row and session are there. -/
theorem Rotations.handsOut (h : Rotations start Φ past) (hbefore : m.before = past.store start)
    (hplain : Plain m) {token : RefreshToken} (hphase : Φ m.proc = .established token)
    (hafter : m.after.nextRandom = m.before.nextRandom ∧ m.after.tokens = m.before.tokens ∧
      m.after.sessions = m.before.sessions ∧ (∀ credential ∈ m.before.held, credential ∈ m.after.held) ∧
      ∀ t, .refresh t ∈ m.after.held → t = token ∨ .refresh t ∈ m.before.held)
    (hhanded : .refresh token ∈ m.after.held) :
    Rotations start (Function.update Φ m.proc (.handed token)) (m :: past) := by
  obtain ⟨hrandom, htokens, hsessions, hkept, hheld⟩ := hafter
  rw [hbefore] at hrandom htokens hsessions hkept hheld
  have hself : Function.update Φ m.proc (.handed token) m.proc = .handed token :=
    Function.update_self ..
  have hother : ∀ {i}, i ≠ m.proc → Function.update Φ m.proc (.handed token) i = Φ i :=
    fun hi => Function.update_of_ne hi ..
  have hdrawn : (Φ m.proc).drew = some token.jti := by
    rw [hphase]
    rfl
  have hdrew : ∀ {i jti}, (Function.update Φ m.proc (.handed token) i).drew = some jti →
      i ≠ m.proc ∧ (Φ i).drew = some jti := by
    intro i jti hi
    have him : i ≠ m.proc := by
      rintro rfl
      rw [hself] at hi
      cases hi
    rw [hother him] at hi
    exact ⟨him, hi⟩
  refine ⟨h.numbered.handOut hrandom htokens fun t ht => ?_,
    h.told.step (hplain.tellChange ?_ ?_ trivial),
    fun i => ?_, fun i jti hi => hrandom ▸ h.drew i jti (hdrew hi).2,
    fun i j jti hi hj => h.apart i j jti (hdrew hi).2 (hdrew hj).2, fun i row jti hi hused => ?_,
    fun i jti t hsecret ht => ?_, fun family hout r hr => ?_,
    fun family hended r hr hfamily hlive => ?_, fun m' hm' id hclaims r hr hid => ?_⟩
  · rcases hheld t ht with rfl | ht
    · exact h.drew m.proc _ hdrawn
    · exact h.numbered.held t ht
  · rw [hphase]
    rintro family (h | h) <;> cases h
  · rw [hphase]
    nofun
  · by_cases hi : i = m.proc
    · rw [hi, hself]
      exact hhanded
    · rw [hother hi]
      exact (h.ok i).keeps hrandom.ge hkept fun r hr => ⟨r, htokens ▸ hr, rfl, rfl, rfl, rfl⟩
  · have hi' : (Function.update Φ m.proc (.handed token) i).drew = some jti := by
      rw [hi]
      rfl
    rw [hother (hdrew hi').1] at hi
    exact h.fresh i row jti hi (hused.of_thinned hbefore (htokens ▸ thinned_refl _))
  · obtain ⟨him, hi⟩ := hdrew (drew_of_secret hsecret)
    rw [hother him] at hsecret
    rcases hheld t ht with rfl | ht
    · rintro rfl
      exact him (h.apart i m.proc t.jti hi hdrawn)
    · exact h.secret i jti t hsecret ht
  · exact h.signedOut family (hplain.signedOut hout) r (hsessions ▸ hr)
  · obtain ⟨i, howes⟩ := h.ended family (hplain.ended hended) r (htokens ▸ hr) hfamily hlive
    have him : i ≠ m.proc := by
      rintro rfl
      rw [hphase] at howes
      cases howes
    exact ⟨i, by rw [hother him]; exact howes⟩
  · obtain ⟨hjti, hrevoked⟩ := h.spent m' (hplain.mem_of_claims hm' hclaims) id hclaims r hr hid
    exact ⟨hrandom ▸ hjti, fun q hq => hrevoked q (htokens ▸ hq)⟩

/-! ## One live row in each family -/

/-- At most one row of each family is live. -/
def OneEach (rows : List TokenRow) : Prop :=
  ∀ r ∈ rows, ∀ r' ∈ rows, r.family = r'.family → r.revoked = false → r'.revoked = false → r = r'

/-- Since the request claimed its row, a replay found no live row of the family. -/
def Overtaken (i : ι) (family : ℕ) : FamilyHistory ι → Prop
  | [] => False
  | m :: past => ¬ (m.proc = i ∧ claims m.call m.answer ≠ none) ∧
    (findsNoLiveRow family m.call m.answer = true ∨ Overtaken i family past)

/-- No rotation of the family has inserted its successor where it had been overtaken. -/
def Undisturbed (family : ℕ) : FamilyHistory ι → Prop :=
  Along fun past m => ∀ token generation, inserts m.call m.answer = some (token, generation) →
    token.family = family → ¬ Overtaken m.proc family past

/-- What holds besides, where one row of each family is live at the start. -/
structure OneLive (start : AuthStore) (Φ : ι → RotationPhase) (past : FamilyHistory ι) : Prop where
  live : OneEach (past.store start).tokens
  minting : ∀ i row, (Φ i).minting = some row →
    (∀ r ∈ (past.store start).tokens, r.family = row.family → r.revoked = true) ∧
      ∀ j row', (Φ j).minting = some row' → row'.family = row.family → j = i
  checked : ∀ family, Undisturbed family past → FoundDead family past →
    (∀ r ∈ (past.store start).tokens, r.family = family → r.revoked = true) ∧
      ∀ i row, (Φ i).minting = some row → row.family = family → Overtaken i family past

theorem revoked_of_thinned {rows rows' : List TokenRow} (h : Thinned rows rows') {family : ℕ}
    (hrevoked : ∀ r ∈ rows, r.family = family → r.revoked = true) :
    ∀ r ∈ rows', r.family = family → r.revoked = true := by
  intro r hr hfamily
  obtain ⟨old, hold, -, -, hsame, -, hlive⟩ := h.origin hr
  by_contra hnot
  have hold' := hrevoked old hold (hsame.trans hfamily)
  rw [hlive (eq_false_of_ne_true hnot)] at hold'
  cases hold'

theorem oneEach_of_thinned {rows rows' : List TokenRow} (h : Thinned rows rows')
    (hone : OneEach rows) : OneEach rows' := by
  intro q hq q' hq' hfamily hlive hlive'
  refine h.unique (P := fun r r' => r.family = r'.family ∧ r.revoked = false ∧ r'.revoked = false)
    (fun r hr r' hr' hP => hone r hr r' hr' hP.1 hP.2.1 hP.2.2) hq hq' ?_
  intro r r' _ _ hr hrlive _ _ hr' hrlive'
  exact ⟨by rw [hr, hr', hfamily], hrlive hlive, hrlive' hlive'⟩

/-- A call that adds no row: the only new rotation is one that claims its row. -/
theorem OneLive.thinned (h : OneLive start Φ past) (hbefore : m.before = past.store start)
    (hm : m.Happened performFamily) (htokens : Thinned m.before.tokens m.after.tokens)
    {φ' : RotationPhase}
    (hminting : ∀ row, φ'.minting = some row →
      (Φ m.proc).minting = some row ∧ claims m.call m.answer = none ∨
        claims m.call m.answer = some row.id ∧ ∀ r ∈ m.before.tokens, r.id = row.id →
          r.family = row.family) :
    OneLive start (Function.update Φ m.proc φ') (m :: past) := by
  have hself : Function.update Φ m.proc φ' m.proc = φ' := Function.update_self ..
  have hother : ∀ {i}, i ≠ m.proc → Function.update Φ m.proc φ' i = Φ i := fun hi =>
    Function.update_of_ne hi ..
  rw [hbefore] at htokens hminting
  -- a request that mints after the call minted before it, or has just claimed
  have hcases : ∀ i row, (Function.update Φ m.proc φ' i).minting = some row →
      (Φ i).minting = some row ∧ ¬ (m.proc = i ∧ claims m.call m.answer ≠ none) ∨
        i = m.proc ∧ claims m.call m.answer = some row.id ∧
          ∃ r ∈ (past.store start).tokens, r.family = row.family ∧ r.revoked = false ∧
            r.id = row.id := by
    intro i row hi
    by_cases him : i = m.proc
    · subst him
      rw [hself] at hi
      rcases hminting row hi with ⟨hold, hnone⟩ | ⟨hclaims, hfamily⟩
      · exact .inl ⟨hold, fun hnot => hnot.2 hnone⟩
      · obtain ⟨⟨r, hr, hid, hlive⟩, -⟩ := tokens_of_claims hm hclaims
        rw [hbefore] at hr
        exact .inr ⟨rfl, hclaims, r, hr, hfamily r hr hid, hlive, hid⟩
    · rw [hother him] at hi
      exact .inl ⟨hi, fun hnot => him hnot.1.symm⟩
  refine ⟨oneEach_of_thinned htokens h.live, fun i row hi => ⟨?_, fun j row' hj hfamily => ?_⟩,
    fun family hundisturbed hdead => ⟨?_, fun i row hi hfamily => ?_⟩⟩
  · rcases hcases i row hi with ⟨hold, -⟩ | ⟨-, hclaims, r, hr, hfamily, hlive, hid⟩
    · exact revoked_of_thinned htokens (h.minting i row hold).1
    · -- the live row that was claimed was the only one
      intro q hq hqfamily
      by_contra hnot
      have hqlive := eq_false_of_ne_true hnot
      obtain ⟨old, hold, hoid, -, hofamily, -, holive⟩ := htokens.origin hq
      have hsame := h.live old hold r hr (by rw [hofamily, hqfamily, hfamily]) (holive hqlive) hlive
      exact hnot ((tokens_of_claims hm hclaims).2 q hq (by rw [← hoid, hsame, hid]))
  · rcases hcases i row hi with ⟨hi, -⟩ | ⟨rfl, -, r, hr, hrfamily, hlive, -⟩ <;>
      rcases hcases j row' hj with ⟨hj, -⟩ | ⟨rfl, -, r', hr', hrfamily', hlive', -⟩
    · exact (h.minting i row hi).2 j row' hj hfamily
    · have := (h.minting i row hi).1 r' hr' (hrfamily'.trans hfamily)
      rw [hlive'] at this
      cases this
    · have := (h.minting j row' hj).1 r hr (hrfamily.trans hfamily.symm)
      rw [hlive] at this
      cases this
    · rfl
  · rcases foundDead_cons_iff.mp hdead with hfinds | hdead
    · have hrevoked := (tokens_of_findsNoLiveRow hm hfinds).2.2
      rw [hbefore] at hrevoked
      exact revoked_of_thinned htokens hrevoked
    · exact revoked_of_thinned htokens (h.checked family hundisturbed.2 hdead).1
  · rcases foundDead_cons_iff.mp hdead with hfinds | hdead
    · exact ⟨fun hnot => hnot.2 (tokens_of_findsNoLiveRow hm hfinds).1, .inl hfinds⟩
    · obtain ⟨hrevoked, hovertaken⟩ := h.checked family hundisturbed.2 hdead
      rcases hcases i row hi with ⟨hold, hnot⟩ | ⟨-, -, r, hr, hrfamily, hlive, -⟩
      · exact ⟨hnot, .inr (hovertaken i row hold hfamily)⟩
      · rw [hrevoked r hr (hrfamily.trans hfamily)] at hlive
        cases hlive

/-- The successor of a claimed row is inserted, into a family without a live row. -/
theorem OneLive.inserted (h : OneLive start Φ past) (hbefore : m.before = past.store start)
    {row : TokenRow} {token : RefreshToken} {generation expiresAt : ℕ}
    (hphase : Φ m.proc = .drawn row token.jti) (hfamily : token.family = row.family)
    (hinserts : inserts m.call m.answer = some (token, generation))
    (hfinds : ∀ family, findsNoLiveRow family m.call m.answer = false)
    (htokens : m.after.tokens = m.before.tokens ++
      [⟨m.before.nextRandom, token, token.family, generation, false, expiresAt⟩]) :
    OneLive start (Function.update Φ m.proc (.written token)) (m :: past) := by
  have hmine : (Φ m.proc).minting = some row := by
    rw [hphase]
    rfl
  obtain ⟨hnone, halone⟩ := h.minting m.proc row hmine
  have hminting : ∀ i row', (Function.update Φ m.proc (.written token) i).minting = some row' →
      (Φ i).minting = some row' ∧ i ≠ m.proc ∧ row'.family ≠ row.family := by
    intro i row' hi
    by_cases him : i = m.proc
    · subst him
      rw [Function.update_self] at hi
      cases hi
    · rw [Function.update_of_ne him] at hi
      exact ⟨hi, him, fun hsame => him (halone i row' hi hsame)⟩
  have hmem : ∀ {r}, r ∈ m.after.tokens → r ∈ (past.store start).tokens ∨
      r.family = row.family ∧ r = ⟨m.before.nextRandom, token, token.family, generation, false,
        expiresAt⟩ := by
    intro r hr
    rw [htokens, hbefore] at hr
    rcases List.mem_append.mp hr with hr | hr
    · exact .inl hr
    · rw [List.mem_singleton.mp hr, hbefore]
      exact .inr ⟨hfamily, rfl⟩
  refine ⟨fun r hr r' hr' hsame hlive hlive' => ?_, fun i row' hi => ⟨fun r hr hrfamily => ?_,
    fun j row'' hj hjfamily => ?_⟩, fun family hundisturbed hdead => ?_⟩
  · rcases hmem hr with hr | ⟨hr, hnew⟩ <;> rcases hmem hr' with hr' | ⟨hr', hnew'⟩
    · exact h.live r hr r' hr' hsame hlive hlive'
    · rw [hnone r hr (hsame.trans hr')] at hlive
      cases hlive
    · rw [hnone r' hr' (hsame.symm.trans hr)] at hlive'
      cases hlive'
    · rw [hnew, hnew']
  · obtain ⟨hi, -, hne⟩ := hminting i row' hi
    rcases hmem hr with hr | ⟨hr, -⟩
    · exact (h.minting i row' hi).1 r hr hrfamily
    · exact absurd (hrfamily.symm.trans hr) hne
  · exact (h.minting i row' (hminting i row' hi).1).2 j row'' (hminting j row'' hj).1 hjfamily
  · have hdead' : FoundDead family past :=
      (foundDead_cons_iff.mp hdead).resolve_left (by simp [hfinds])
    obtain ⟨hrevoked, hovertaken⟩ := h.checked family hundisturbed.2 hdead'
    -- the family of the new row has not been found dead since its rotation claimed
    have hne : row.family ≠ family := by
      intro hsame
      exact hundisturbed.1 token generation hinserts (hfamily.trans hsame)
        (hovertaken m.proc row hmine hsame)
    refine ⟨fun r hr hrfamily => ?_, fun i row' hi hifamily => ?_⟩
    · rcases hmem hr with hr | ⟨hr, -⟩
      · exact hrevoked r hr hrfamily
      · exact absurd (hr.symm.trans hrfamily) hne
    · obtain ⟨hi, him, -⟩ := hminting i row' hi
      exact ⟨fun hnot => him hnot.1.symm, .inr (hovertaken i row' hi hifamily)⟩

end Auth
