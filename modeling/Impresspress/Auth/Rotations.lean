import Impresspress.Auth.Families
import Impresspress.Concurrent.Phases

/-!
# What the calls of a rotation and a revocation do

A rotation claims a row, draws the nonce of its successor, inserts the successor's row and touches
the session; a revocation deletes the session and then revokes the rows. The history says how far
they have come, and every call but an insert and an answer leaves the rest alone.

## Main definitions

* `Auth.SignedOut`, `Auth.FamilyEnded`: how far the revocation of a family has come.
* `Auth.Frame`: what a call leaves alone.

## Main results

* `Auth.frame_performFamily`: every call but an insert and an answer is framed.
* `Auth.tokens_of_claims`: what a claim finds and leaves.
-/

namespace Auth

open Concurrent

variable {ι : Type}

abbrev FamilyMoment (ι : Type) := Moment ι AuthStore (Outcome Unit FamilyReply)

abbrev FamilyHistory (ι : Type) := History ι AuthStore (Outcome Unit FamilyReply)

/-! ## What a moment did -/

/-- The call deleted the session row of the family. -/
def endsSession (family : ℕ) : (c : FamilyCall) → Outcome Unit FamilyReply c → Bool
  | .statement (.deleteSession f), .ok _ => f == family
  | .statement .deleteSessions, .ok _ => true
  | _, _ => false

/-- The call revoked the refresh rows of the family. -/
def revokesRows (family : ℕ) : (c : FamilyCall) → Outcome Unit FamilyReply c → Bool
  | .statement (.revokeFamily f), .ok _ => f == family
  | .statement .revokeTokens, .ok _ => true
  | _, _ => false

/-- A step of the revocation of the family failed. -/
def failsRevocation (family : ℕ) : (c : FamilyCall) → Outcome Unit FamilyReply c → Bool
  | .statement (.deleteSession f), .error _ => f == family
  | .statement (.revokeFamily f), .error _ => f == family
  | _, _ => false

/-- The row that the call claimed. -/
def claims : (c : FamilyCall) → Outcome Unit FamilyReply c → Option ℕ
  | .statement (.revokeIfLive id), .ok true => some id
  | _, _ => none

/-- The row that the call found claimed. -/
def losesClaim : (c : FamilyCall) → Outcome Unit FamilyReply c → Bool
  | .statement (.revokeIfLive _), .ok false => true
  | _, _ => false

/-- The token and the generation of the row that the call inserted. -/
def inserts : (c : FamilyCall) → Outcome Unit FamilyReply c → Option (RefreshToken × ℕ)
  | .statement (.insertToken token generation _), .ok _ => some (token, generation)
  | _, _ => none

/-- The call read a row of the family that was revoked. -/
def readsRevoked (family : ℕ) : (c : FamilyCall) → Outcome Unit FamilyReply c → Bool
  | .statement (.findToken _), .ok (some row) => row.revoked && row.family == family
  | _, _ => false

/-- The call found the family to have no live row. -/
def findsNoLiveRow (family : ℕ) : (c : FamilyCall) → Outcome Unit FamilyReply c → Bool
  | .statement (.familyHasLiveRow f), .ok false => f == family
  | _, _ => false

/-- The session row of the family has been deleted. -/
def SignedOut (family : ℕ) (past : FamilyHistory ι) : Prop :=
  ∃ m ∈ past, endsSession family m.call m.answer = true

/-- The session row of the family has been deleted, and then its refresh rows were revoked. -/
def FamilyEnded (family : ℕ) : FamilyHistory ι → Prop
  | [] => False
  | m :: past =>
    revokesRows family m.call m.answer = true ∧ SignedOut family past ∨ FamilyEnded family past

/-- A replay of a token of the family found no live row. -/
def FoundDead (family : ℕ) (past : FamilyHistory ι) : Prop :=
  ∃ m ∈ past, findsNoLiveRow family m.call m.answer = true

/-- A step of a revocation of the family has failed. -/
def RevocationFailed (family : ℕ) (past : FamilyHistory ι) : Prop :=
  ∃ m ∈ past, failsRevocation family m.call m.answer = true

theorem SignedOut.cons {family : ℕ} {past : FamilyHistory ι} (h : SignedOut family past)
    (m : FamilyMoment ι) : SignedOut family (m :: past) :=
  h.imp fun _ hm => ⟨List.mem_cons_of_mem _ hm.1, hm.2⟩

theorem FoundDead.cons {family : ℕ} {past : FamilyHistory ι} (h : FoundDead family past)
    (m : FamilyMoment ι) : FoundDead family (m :: past) :=
  h.imp fun _ hm => ⟨List.mem_cons_of_mem _ hm.1, hm.2⟩

theorem RevocationFailed.cons {family : ℕ} {past : FamilyHistory ι}
    (h : RevocationFailed family past) (m : FamilyMoment ι) : RevocationFailed family (m :: past) :=
  h.imp fun _ hm => ⟨List.mem_cons_of_mem _ hm.1, hm.2⟩

theorem signedOut_cons_iff {family : ℕ} {m : FamilyMoment ι} {past : FamilyHistory ι} :
    SignedOut family (m :: past) ↔
      endsSession family m.call m.answer = true ∨ SignedOut family past := by
  simp [SignedOut]

theorem foundDead_cons_iff {family : ℕ} {m : FamilyMoment ι} {past : FamilyHistory ι} :
    FoundDead family (m :: past) ↔
      findsNoLiveRow family m.call m.answer = true ∨ FoundDead family past := by
  simp [FoundDead]

theorem FamilyEnded.signedOut {family : ℕ} {past : FamilyHistory ι} (h : FamilyEnded family past) :
    SignedOut family past := by
  induction past with
  | nil => exact h.elim
  | cons m past ih =>
    rcases h with ⟨-, h⟩ | h
    · exact h.cons m
    · exact (ih h).cons m

/-! ## What a call leaves alone -/

/-- Rows are dropped and revoked. -/
def Thinned (rows rows' : List TokenRow) : Prop :=
  ∃ keep revoke : TokenRow → Bool, rows' =
    (rows.filter keep).map fun row => { row with revoked := row.revoked || revoke row }

/-- Rows are dropped and revoked, and sessions deleted; nothing is added or handed out. -/
structure Frame (s s' : AuthStore) : Prop where
  random : s.nextRandom ≤ s'.nextRandom
  held : s'.held = s.held
  tokens : Thinned s.tokens s'.tokens
  sessions : ∀ row' ∈ s'.sessions, ∃ row ∈ s.sessions, row.family = row'.family

/-- Every call but those that add a row or hand something out. -/
def Framed : FamilyCall → Prop
  | .statement (.createFamily ..) | .statement (.insertToken ..) | .statement (.respond _) => False
  | _ => True

theorem map_revoked_eq (rows : List TokenRow) (f : TokenRow → TokenRow) (revoke : TokenRow → Bool)
    (h : ∀ row, f row = { row with revoked := row.revoked || revoke row }) :
    rows.map f = (rows.filter fun _ => true).map
      fun row => { row with revoked := row.revoked || revoke row } := by
  rw [List.filter_true]
  exact List.map_congr_left fun row _ => h row

theorem thinned_refl (rows : List TokenRow) : Thinned rows rows :=
  ⟨fun _ => true, fun _ => false, by simp⟩

theorem frame_of_eq {s s' : AuthStore} (hrandom : s.nextRandom ≤ s'.nextRandom)
    (hheld : s'.held = s.held) (htokens : s'.tokens = s.tokens)
    (hsessions : s'.sessions = s.sessions) : Frame s s' where
  random := hrandom
  held := hheld
  tokens := by
    rw [htokens]
    exact thinned_refl _
  sessions row' hrow' := by
    rw [hsessions] at hrow'
    exact ⟨row', hrow', rfl⟩

theorem frame_perform {c : AuthCall} (hc : Framed (.statement c)) (chance : AuthChance)
    (s : AuthStore) : Frame s (perform chance c s).2 := by
  cases c with
  | createFamily | insertToken | respond => exact hc.elim
  | randomBytes => exact frame_of_eq (Nat.le_succ _) rfl rfl rfl
  | insertCredential hash =>
    cases h : s.passwordHash <;> refine frame_of_eq ?_ ?_ ?_ ?_ <;> simp [perform, h]
  | insertKey name keyHash expiresAt =>
    cases h : s.apiKeys.insert ⟨s.nextRandom, name, keyHash, expiresAt, none⟩ <;>
      refine frame_of_eq ?_ ?_ ?_ ?_ <;> simp [perform, h]
  | takeResetToken tokenHash =>
    by_cases h : s.user.resetToken = tokenHash <;>
      refine frame_of_eq ?_ ?_ ?_ ?_ <;> simp [perform, h]
  | restoreResetToken tokenHash =>
    by_cases h : s.user.resetToken = "" <;>
      refine frame_of_eq ?_ ?_ ?_ ?_ <;> simp [perform, h]
  | revokeIfLive id =>
    refine ⟨Nat.le_refl _, rfl, ⟨_, fun row => row.id == id, map_revoked_eq _ _ _ fun row => ?_⟩,
      fun row hrow => ⟨row, hrow, rfl⟩⟩
    obtain ⟨id', token, family, generation, revoked, expiresAt⟩ := row
    cases revoked <;> by_cases hid : id' = id <;> simp [hid]
  | revokeFamily family =>
    refine ⟨Nat.le_refl _, rfl,
      ⟨_, fun row => row.family == family, map_revoked_eq _ _ _ fun row => ?_⟩,
      fun row hrow => ⟨row, hrow, rfl⟩⟩
    obtain ⟨id, token, family', generation, revoked, expiresAt⟩ := row
    by_cases hfamily : family' = family <;> simp [hfamily]
  | revokeTokens =>
    refine ⟨Nat.le_refl _, rfl, ⟨_, fun _ => true, map_revoked_eq _ _ _ fun row => ?_⟩,
      fun row hrow => ⟨row, hrow, rfl⟩⟩
    simp
  | touchSession family expiresAt =>
    refine ⟨Nat.le_refl _, rfl, ⟨fun _ => true, fun _ => false, ?_⟩, fun row' hrow' => ?_⟩
    · simp [perform]
    · obtain ⟨row, hrow, rfl⟩ := List.mem_map.mp hrow'
      refine ⟨row, hrow, ?_⟩
      split <;> rfl
  | deleteSession family =>
    refine ⟨Nat.le_refl _, rfl, ⟨fun _ => true, fun _ => false, ?_⟩, fun row' hrow' => ?_⟩
    · simp [perform]
    · exact ⟨row', (List.mem_filter.mp hrow').1, rfl⟩
  | deleteSessions =>
    refine ⟨Nat.le_refl _, rfl, ⟨fun _ => true, fun _ => false, ?_⟩, fun row' hrow' => ?_⟩
    · simp [perform]
    · exact absurd hrow' List.not_mem_nil
  | _ => exact frame_of_eq (Nat.le_refl _) rfl rfl rfl

theorem frame_performFamily {c : FamilyCall} (hc : Framed c) (chance : FamilyChance)
    (s : AuthStore) : Frame s (performFamily chance c s).2 := by
  unfold performFamily
  split
  · exact frame_of_eq (Nat.le_refl _) rfl rfl rfl
  · cases c with
    | statement c => exact frame_perform hc chance.auth s
    | readConfig => exact frame_of_eq (Nat.le_refl _) rfl rfl rfl
    | findSession => exact frame_of_eq (Nat.le_refl _) rfl rfl rfl
    | expireSessions cutoff =>
      refine ⟨Nat.le_refl _, rfl, ⟨fun _ => true, fun _ => false, ?_⟩, fun row' hrow' => ?_⟩
      · simp [answerFamily]
      · exact ⟨row', (List.mem_filter.mp hrow').1, rfl⟩
    | expireTokens cutoff =>
      refine ⟨Nat.le_refl _, rfl, ⟨fun row => !decide (row.expiresAt < cutoff), fun _ => false, ?_⟩,
        fun row hrow => ⟨row, hrow, rfl⟩⟩
      simp [answerFamily]

namespace Thinned

variable {rows rows' : List TokenRow}

/-- Where a row comes from. -/
theorem origin (h : Thinned rows rows') {row' : TokenRow} (hrow' : row' ∈ rows') :
    ∃ row ∈ rows, row.id = row'.id ∧ row.token = row'.token ∧ row.family = row'.family ∧
      row.generation = row'.generation ∧ (row'.revoked = false → row.revoked = false) := by
  obtain ⟨keep, revoke, rfl⟩ := h
  obtain ⟨row, hrow, rfl⟩ := List.mem_map.mp hrow'
  refine ⟨row, (List.mem_filter.mp hrow).1, rfl, rfl, rfl, rfl, fun hlive => ?_⟩
  exact (Bool.or_eq_false_iff.mp hlive).1

/-- Rows that are equal come to be equal. -/
theorem unique (h : Thinned rows rows') {P : TokenRow → TokenRow → Prop}
    (hunique : ∀ r ∈ rows, ∀ r' ∈ rows, P r r' → r = r') {q q' : TokenRow}
    (hq : q ∈ rows') (hq' : q' ∈ rows')
    (hP : ∀ r r' : TokenRow, r.id = q.id → r.token = q.token → r.family = q.family →
      (q.revoked = false → r.revoked = false) → r'.id = q'.id → r'.token = q'.token →
      r'.family = q'.family → (q'.revoked = false → r'.revoked = false) → P r r') : q = q' := by
  obtain ⟨keep, revoke, rfl⟩ := h
  obtain ⟨r, hr, rfl⟩ := List.mem_map.mp hq
  obtain ⟨r', hr', rfl⟩ := List.mem_map.mp hq'
  obtain rfl := hunique r (List.mem_filter.mp hr).1 r' (List.mem_filter.mp hr').1
    (hP r r' rfl rfl rfl (fun hlive => (Bool.or_eq_false_iff.mp hlive).1) rfl rfl rfl
      fun hlive => (Bool.or_eq_false_iff.mp hlive).1)
  rfl

end Thinned

/-! ## What the calls of a revocation and of a claim do -/

section Effects

variable {m : FamilyMoment ι} {family : ℕ}

theorem answer_of_happened (hm : m.Happened performFamily) :
    (m.answer = .error () ∧ m.after.tokens = m.before.tokens ∧ m.after.held = m.before.held ∧
      m.after.sessions = m.before.sessions ∧ m.after.nextRandom = m.before.nextRandom) ∨
    ∃ chance, m.answer = .ok (answerFamily chance m.call m.before).1 ∧
      m.after = (answerFamily chance m.call m.before).2 := by
  obtain ⟨chance, hanswer, hafter⟩ := hm
  unfold performFamily at hanswer hafter
  split at hanswer
  · rename_i hfails
    rw [if_pos hfails] at hafter
    rw [hafter]
    exact .inl ⟨hanswer, rfl, rfl, rfl, rfl⟩
  · rename_i hfails
    rw [if_neg hfails] at hafter
    exact .inr ⟨chance.auth, hanswer, hafter⟩

theorem sessions_of_endsSession (hm : m.Happened performFamily)
    (h : endsSession family m.call m.answer = true) :
    ∀ row ∈ m.after.sessions, row.family ≠ family := by
  obtain ⟨i, s, c, answer, s'⟩ := m
  rcases answer_of_happened hm with ⟨hanswer, -⟩ | ⟨chance, hanswer, hafter⟩
  · dsimp only at hanswer h
    rw [hanswer] at h
    cases c with
    | statement c => cases c <;> cases h
    | _ => cases h
  · dsimp only at hanswer hafter h ⊢
    subst hanswer hafter
    cases c with
    | statement c =>
      cases c with
      | deleteSession f =>
        obtain rfl : f = family := by simpa [endsSession] using h
        intro row hrow
        simpa using (List.mem_filter.mp hrow).2
      | deleteSessions => exact fun row hrow => absurd hrow List.not_mem_nil
      | _ => cases h
    | _ => cases h

theorem tokens_of_revokesRows (hm : m.Happened performFamily)
    (h : revokesRows family m.call m.answer = true) :
    ∀ row ∈ m.after.tokens, row.family = family → row.revoked = true := by
  obtain ⟨i, s, c, answer, s'⟩ := m
  rcases answer_of_happened hm with ⟨hanswer, -⟩ | ⟨chance, hanswer, hafter⟩
  · dsimp only at hanswer h
    rw [hanswer] at h
    cases c with
    | statement c => cases c <;> cases h
    | _ => cases h
  · dsimp only at hanswer hafter h ⊢
    subst hanswer hafter
    cases c with
    | statement c =>
      cases c with
      | revokeFamily f =>
        obtain rfl : f = family := by simpa [revokesRows] using h
        intro row hrow hfamily
        obtain ⟨old, -, rfl⟩ := List.mem_map.mp hrow
        by_cases hold : old.family = f
        · simp [hold]
        · simp [hold] at hfamily
      | revokeTokens =>
        intro row hrow _
        obtain ⟨old, -, rfl⟩ := List.mem_map.mp hrow
        rfl
      | _ => cases h
    | _ => cases h

/-- A claim finds the row live, and leaves it revoked. -/
theorem tokens_of_claims {id : ℕ} (hm : m.Happened performFamily)
    (h : claims m.call m.answer = some id) :
    (∃ row ∈ m.before.tokens, row.id = id ∧ row.revoked = false) ∧
      ∀ row ∈ m.after.tokens, row.id = id → row.revoked = true := by
  obtain ⟨i, s, c, answer, s'⟩ := m
  rcases answer_of_happened hm with ⟨hanswer, -⟩ | ⟨chance, hanswer, hafter⟩
  · dsimp only at hanswer h
    rw [hanswer] at h
    cases c with
    | statement c => cases c <;> cases h
    | _ => cases h
  · dsimp only at hanswer hafter h ⊢
    subst hanswer hafter
    cases c with
    | statement c =>
      cases c with
      | revokeIfLive id' =>
        cases hany : s.tokens.any (fun row => row.id == id' && !row.revoked) with
        | false => simp [claims, answerFamily, perform, hany] at h
        | true =>
          obtain rfl : id' = id := by simpa [claims, answerFamily, perform, hany] using h
          obtain ⟨row, hrow, hlive⟩ := List.any_eq_true.mp hany
          refine ⟨⟨row, hrow, by simpa using hlive⟩, fun row hrow hid => ?_⟩
          obtain ⟨old, -, rfl⟩ := List.mem_map.mp hrow
          cases hrevoked : old.revoked <;> by_cases hold : old.id = id' <;>
            simp_all
      | _ => cases h
    | _ => cases h

/-- A check that finds no live row. -/
theorem tokens_of_findsNoLiveRow (hm : m.Happened performFamily)
    (h : findsNoLiveRow family m.call m.answer = true) :
    claims m.call m.answer = none ∧ inserts m.call m.answer = none ∧
      ∀ row ∈ m.before.tokens, row.family = family → row.revoked = true := by
  obtain ⟨i, s, c, answer, s'⟩ := m
  rcases answer_of_happened hm with ⟨hanswer, -⟩ | ⟨chance, hanswer, hafter⟩
  · dsimp only at hanswer h
    rw [hanswer] at h
    cases c with
    | statement c => cases c <;> cases h
    | _ => cases h
  · dsimp only at hanswer hafter h ⊢
    subst hanswer hafter
    cases c with
    | statement c =>
      cases c with
      | familyHasLiveRow f =>
        refine ⟨rfl, rfl, fun row hrow hfamily => ?_⟩
        cases hany : s.tokens.any (fun row => row.family == f && !row.revoked) with
        | true => simp [findsNoLiveRow, answerFamily, perform, hany] at h
        | false =>
          obtain rfl : f = family := by simpa [findsNoLiveRow, answerFamily, perform, hany] using h
          have hnot := List.any_eq_false.mp hany row hrow
          simpa [hfamily] using hnot
      | _ => cases h
    | _ => cases h

theorem frame_of_happened (hm : m.Happened performFamily) (hc : Framed m.call) :
    Frame m.before m.after := by
  obtain ⟨chance, -, hafter⟩ := hm
  rw [hafter]
  exact frame_performFamily hc chance m.before

end Effects

end Auth
