import Impresspress.Auth.RotationPhases

/-!
# The calls of the requests to the families

Each call moves the phase of its request and keeps the invariant. A rotation claims, draws, inserts
and touches; a revocation deletes the session and then revokes the rows; a replay looks for a live
row first.

## Main definitions

* `Auth.Promises`: what a call promises.
* `Auth.rotations`: the protocol of the requests to the families of an account.

## Main results

* `Auth.moves_claim`, `Auth.moves_insert`, `Auth.moves_touch`: the steps of a rotation.
* `Auth.moves_endSession`, `Auth.moves_revokeRows`: the steps of a revocation.
* `Auth.moves_respond`: the answer.
-/

namespace Auth

open Concurrent Protocol RotationPhase

variable {ι : Type} [DecidableEq ι]

/-- What each call of the requests promises: a token is claimed once, and of a family that is open;
a claim has one successor, one generation on; who lost a claim does no more than answer. -/
structure Promises (start : AuthStore) (past : FamilyHistory ι) (m : FamilyMoment ι) : Prop where
  once : ∀ id, claims m.call m.answer = some id → ∀ r ∈ m.before.tokens, r.id = id →
    ∀ m' ∈ past, ∀ id', claims m'.call m'.answer = some id' → ∀ r' ∈ m'.before.tokens, r'.id = id' →
      r'.token ≠ r.token
  open_ : ∀ id, claims m.call m.answer = some id → ∀ r ∈ m.before.tokens, r.id = id →
    ¬ FamilyEnded r.family past ∧
      (OneEach start.tokens → Undisturbed r.family past → ¬ FoundDead r.family past)
  successor : ∀ token generation, inserts m.call m.answer = some (token, generation) →
    ¬ Inserted m.proc past ∧ ∃ row, ClaimedBy m.proc past row ∧ token.family = row.family ∧
      generation = row.generation + 1
  idle : LostClaim m.proc past → ∃ response, m.call = .statement (.respond response)

/-- The protocol of the requests to the families of an account. -/
def rotations (start : AuthStore) : Protocol ι AuthStore (Outcome Unit FamilyReply) RotationPhase where
  inv Φ past := Rotations start Φ past ∧ (OneEach start.tokens → OneLive start Φ past)
  guarantee := Promises start

section Moves

variable {start : AuthStore} {i : ι} {φ : RotationPhase} {c : FamilyCall}
  {next : Outcome Unit FamilyReply c → RotationPhase → Prop}

omit [DecidableEq ι] in
theorem promises_of_none {past : FamilyHistory ι} {m : FamilyMoment ι}
    (hclaims : claims m.call m.answer = none) (hinserts : inserts m.call m.answer = none)
    (hidle : LostClaim m.proc past → ∃ response, m.call = .statement (.respond response)) :
    Promises start past m where
  once id hid := by
    rw [hclaims] at hid
    cases hid
  open_ id hid := by
    rw [hclaims] at hid
    cases hid
  successor token generation hinsert := by
    rw [hinserts] at hinsert
    cases hinsert
  idle := hidle

/-- A call that adds no row and hands nothing out. -/
theorem inv_of_change {Φ : ι → RotationPhase} {past : FamilyHistory ι} {m : FamilyMoment ι}
    {φ' : RotationPhase} (hinv : (rotations start).inv Φ past) (hbefore : m.before = past.store start)
    (hm : m.Happened performFamily) (hframe : Frame m.before m.after)
    (hchange : PhaseChange past m (Φ m.proc) φ')
    (hminting : ∀ row, φ'.minting = some row →
      (Φ m.proc).minting = some row ∧ claims m.call m.answer = none ∨
        claims m.call m.answer = some row.id ∧
          ∀ r ∈ m.before.tokens, r.id = row.id → r.family = row.family) :
    (rotations start).inv (Function.update Φ m.proc φ') (m :: past) :=
  ⟨hinv.1.framed hbefore hm hframe hchange, fun heach =>
    (hinv.2 heach).thinned hbefore hm hframe.tokens hminting⟩

/-- A call that is framed where it is made, and the phase that follows it. -/
theorem moves_change (h : ∀ Φ past chance answer s', Φ i = φ → (rotations start).inv Φ past →
      performFamily chance c (past.store start) = (answer, s') →
      Frame (past.store start) s' ∧ ∃ φ', PhaseChange past ⟨i, past.store start, c, answer, s'⟩ φ φ' ∧
        (∀ row, φ'.minting = some row → φ.minting = some row ∧ claims c answer = none ∨
          claims c answer = some row.id ∧
            ∀ r ∈ (past.store start).tokens, r.id = row.id → r.family = row.family) ∧
        Promises start past ⟨i, past.store start, c, answer, s'⟩ ∧ next answer φ') :
    (rotations start).Moves performFamily start i φ c next := by
  intro Φ past chance hφ hinv _
  obtain ⟨hframe, φ', hchange, hminting, hpromises, hnext⟩ := h Φ past chance _ _ hφ hinv rfl
  subst hφ
  exact ⟨hpromises, φ', inv_of_change hinv rfl ⟨chance, rfl, rfl⟩ hframe hchange hminting, hnext⟩

/-! ### Calls that fail -/

omit [DecidableEq ι] in
/-- A call that fails leaves every row as it is. -/
theorem frame_of_error {chance : FamilyChance} {s s' : AuthStore}
    (h : performFamily chance c s = (.error (), s')) : c ≠ revokedAnswer ∧ Frame s s' := by
  unfold performFamily at h
  split at h
  · rename_i hfails
    cases h
    refine ⟨?_, frame_of_eq (Nat.le_refl _) rfl rfl rfl⟩
    rintro rfl
    cases hfails
  · cases h

omit [DecidableEq ι] in
/-- What a call that did not fail was answered. -/
theorem answer_ok {chance : FamilyChance} {s s' : AuthStore} {reply : FamilyReply c}
    (h : performFamily chance c s = (.ok reply, s')) :
    reply = (answerFamily chance.auth c s).1 ∧ s' = (answerFamily chance.auth c s).2 := by
  unfold performFamily at h
  split at h
  · cases h
  · cases h
    exact ⟨rfl, rfl⟩

theorem nothing_of_error (c : FamilyCall) : claims c (.error ()) = none ∧
    inserts c (.error ()) = none ∧ losesClaim c (.error ()) = false ∧
      ∀ family, readsRevoked family c (.error ()) = false := by
  cases c with
  | statement c => cases c <;> exact ⟨rfl, rfl, rfl, fun _ => rfl⟩
  | _ => exact ⟨rfl, rfl, rfl, fun _ => rfl⟩

/-- A call whose failure leaves the phase as it is: what remains is to look at its answers. -/
theorem moves_answered (hover : φ ≠ finished) (hnext : next (.error ()) φ)
    (h : ∀ Φ past chance reply s', Φ i = φ → (rotations start).inv Φ past → ¬ LostClaim i past →
      performFamily chance c (past.store start) = (.ok reply, s') →
      Promises start past ⟨i, past.store start, c, .ok reply, s'⟩ ∧ ∃ φ',
        (rotations start).inv (Function.update Φ i φ')
          (⟨i, past.store start, c, .ok reply, s'⟩ :: past) ∧ next (.ok reply) φ') :
    (rotations start).Moves performFamily start i φ c next := by
  intro Φ past chance hφ hinv _
  have hidle : ¬ LostClaim i past := fun hlost => hover (hφ ▸ hinv.1.told.lost i hlost)
  have hm : (Pool.momentOf performFamily i chance c (past.store start)).Happened performFamily :=
    ⟨chance, rfl, rfl⟩
  simp only [Pool.momentOf] at hm ⊢
  cases hperform : performFamily chance c (past.store start) with
  | mk answer s' =>
  rw [hperform] at hm
  match answer, hperform, hm with
  | .ok reply, hperform, _ => exact h Φ past chance reply s' hφ hinv hidle hperform
  | .error _, hperform, hm =>
    obtain ⟨hcall, hframe⟩ := frame_of_error hperform
    obtain ⟨hclaims, hinserts, hloses, hreads⟩ := nothing_of_error c
    refine ⟨promises_of_none hclaims hinserts fun hlost => absurd hlost hidle, φ, ?_, hnext⟩
    refine inv_of_change hinv rfl hm hframe ?_ fun row hrow => .inl ⟨hφ ▸ hrow, hclaims⟩
    rw [hφ]
    exact {
      ok := (hφ ▸ hinv.1.ok i : φ.Ok i past (past.store start)).frame hframe
      drew := fun _ hjti => .inl hjti
      secret := fun _ hjti => .inl hjti
      owes := fun _ howes => .inl howes
      reads := fun family hread => absurd ((hreads family).symm.trans hread) Bool.false_ne_true
      replays := fun _ hreplays => .inl hreplays
      lost := fun hlost => absurd (hloses.symm.trans hlost) Bool.false_ne_true
      refuses := fun hanswer => absurd hanswer hcall
      finished := fun h => absurd h hover
      minted := fun h => h.resolve_right fun h => h hinserts
      draws := fun _ _ h => .inl h }

/-- A framed call whose failure leaves the phase as it is. -/
theorem moves_ok (hc : Framed c) (hover : φ ≠ finished) (hnext : next (.error ()) φ)
    (h : ∀ Φ past chance reply s', Φ i = φ → (rotations start).inv Φ past → ¬ LostClaim i past →
      φ.Ok i past (past.store start) → Frame (past.store start) s' →
      performFamily chance c (past.store start) = (.ok reply, s') →
      ∃ φ', PhaseChange past ⟨i, past.store start, c, .ok reply, s'⟩ φ φ' ∧
        (∀ row, φ'.minting = some row → φ.minting = some row ∧ claims c (.ok reply) = none ∨
          claims c (.ok reply) = some row.id ∧
            ∀ r ∈ (past.store start).tokens, r.id = row.id → r.family = row.family) ∧
        Promises start past ⟨i, past.store start, c, .ok reply, s'⟩ ∧ next (.ok reply) φ') :
    (rotations start).Moves performFamily start i φ c next := by
  refine moves_answered hover hnext fun Φ past chance reply s' hφ hinv hidle hperform => ?_
  have hframe : Frame (past.store start) s' := by
    have h := frame_performFamily hc chance (past.store start)
    rwa [hperform] at h
  obtain ⟨φ', hchange, hminting, hpromises, hafter⟩ :=
    h Φ past chance reply s' hφ hinv hidle (hφ ▸ hinv.1.ok i) hframe hperform
  subst hφ
  exact ⟨hpromises, φ', inv_of_change hinv rfl
    ⟨chance, congrArg Prod.fst hperform.symm, congrArg Prod.snd hperform.symm⟩ hframe hchange
    hminting, hafter⟩

/-! ### Calls that neither read, claim nor insert a row -/

/-- Calls that read no row, claim none, insert none and hand nothing out. -/
def Still (c : FamilyCall) : Prop :=
  Framed c ∧ ∀ answer, (∀ family, readsRevoked family c answer = false) ∧
    losesClaim c answer = false ∧ claims c answer = none ∧ inserts c answer = none

/-- Every call but those. -/
def Calm : FamilyCall → Prop
  | .statement (.findToken _) | .statement (.revokeIfLive _) => False
  | .statement (.insertToken ..) | .statement (.createFamily ..) | .statement (.respond _) => False
  | _ => True

theorem Calm.still {c : FamilyCall} (hc : Calm c) : Still c := by
  cases c with
  | statement c =>
    cases c with
    | findToken | revokeIfLive | insertToken | createFamily | respond => exact hc.elim
    | _ => exact ⟨trivial, fun answer => ⟨fun _ => rfl, rfl, rfl, rfl⟩⟩
  | _ => exact ⟨trivial, fun answer => ⟨fun _ => rfl, rfl, rfl, rfl⟩⟩

/-- A phase that has drawn, claimed and inserted nothing more than another. -/
structure RotationPhase.Lapses (φ φ' : RotationPhase) : Prop where
  drew : φ'.drew = none ∨ φ'.drew = φ.drew ∧ (φ'.secret = none ∨ φ'.secret = φ.secret)
  minting : φ'.minting = none ∨ φ'.minting = φ.minting
  minted : φ.Minted → φ'.Minted

theorem RotationPhase.Lapses.refl (φ : RotationPhase) : φ.Lapses φ where
  drew := .inr ⟨rfl, .inr rfl⟩
  minting := .inr rfl
  minted := id

omit [DecidableEq ι] in
theorem RotationPhase.Lapses.drawn {φ' : RotationPhase} (h : φ.Lapses φ') {row : TokenRow} {jti : ℕ}
    (hdrawn : φ' = drawn row jti) : φ = drawn row jti := by
  subst hdrawn
  have hdrew : φ.drew = some jti := (h.drew.resolve_left nofun).1.symm
  have hminting : φ.minting = some row := (h.minting.resolve_left nofun).symm
  cases φ <;> simp_all [RotationPhase.drew, RotationPhase.minting]

/-- A still call may change the phase to one that owes nothing more. -/
theorem moves_still (hc : Still c) (hover : φ ≠ .finished)
    (h : ∀ Φ past chance answer s', Φ i = φ → Rotations start Φ past →
      performFamily chance c (past.store start) = (answer, s') → Frame (past.store start) s' →
      ∃ φ', φ'.Ok i (⟨i, past.store start, c, answer, s'⟩ :: past) s' ∧
        φ.Lapses φ' ∧
        (∀ token, φ.owes = some token → φ'.owes = some token ∨
          ∀ row ∈ s'.tokens, row.token = token →
            FamilyEnded row.family (⟨i, past.store start, c, answer, s'⟩ :: past) → row.revoked = true) ∧
        (∀ family, φ.Replays family → φ'.Replays family ∨
          Closed family (⟨i, past.store start, c, answer, s'⟩ :: past)) ∧
        next answer φ') :
    (rotations start).Moves performFamily start i φ c next := by
  refine moves_change fun Φ past chance answer s' hφ hinv hperform => ?_
  obtain ⟨hframed, hstill⟩ := hc
  obtain ⟨hreads, hloses, hclaims, hinserts⟩ := hstill answer
  have hframe : Frame (past.store start) s' := by
    have h := frame_performFamily hframed chance (past.store start)
    rwa [hperform] at h
  obtain ⟨φ', hok, hlapses, howes, hreplays, hnext⟩ :=
    h Φ past chance answer s' hφ hinv.1 hperform hframe
  have htell : TellChange past ⟨i, past.store start, c, answer, s'⟩ φ φ' := by
    refine ⟨fun family hread => ?_, hreplays, fun hlost => ?_, ?_, fun h => absurd h hover,
      fun h => hlapses.minted (h.resolve_right fun h => h hinserts)⟩
    · exact absurd ((hreads family).symm.trans hread) Bool.false_ne_true
    · exact absurd (hloses.symm.trans hlost) Bool.false_ne_true
    · intro hcall
      obtain rfl : c = revokedAnswer := hcall
      exact hframed.elim
  refine ⟨hframe, φ', ⟨htell, hok, fun jti hjti => ?_, fun row jti hdrawn => .inl (hlapses.drawn hdrawn),
    fun jti hjti => ?_, howes⟩, fun row hrow => ?_,
    promises_of_none hclaims hinserts fun hlost => absurd (hφ ▸ hinv.1.told.lost i hlost) hover, hnext⟩
  · rcases hlapses.drew with hnone | ⟨hsame, -⟩
    · rw [hnone] at hjti
      cases hjti
    · exact .inl (hsame ▸ hjti)
  · rcases hlapses.drew with hnone | ⟨-, hnone | hsame⟩
    · have hdrew' := drew_of_secret hjti
      rw [hnone] at hdrew'
      cases hdrew'
    · rw [hnone] at hjti
      cases hjti
    · exact .inl (hsame ▸ hjti)
  · rcases hlapses.minting with hnone | hsame
    · rw [hnone] at hrow
      cases hrow
    · exact .inl ⟨hsame ▸ hrow, hclaims⟩

/-- A still call that leaves the phase as it is. -/
theorem moves_same (hc : Still c) (hover : φ ≠ .finished) :
    (rotations start).Moves performFamily start i φ c fun _ φ' => φ' = φ := by
  refine moves_still hc hover fun Φ past chance answer s' hφ hrotations hperform hframe =>
    ⟨φ, ?_, .refl φ, fun _ howes => .inl howes,
      fun _ hreplays => .inl hreplays, rfl⟩
  rw [← hφ]
  exact (hrotations.ok i).frame hframe

/-! ### The calls of a rotation -/

theorem moves_present (token : RefreshToken) :
    (rotations start).Moves performFamily start i reading
      (.statement (.present (.refresh token))) fun answer φ' =>
        φ' = if answer = .ok true then known token else reading := by
  refine moves_still (Calm.still trivial) nofun
    fun Φ past chance answer s' hφ hrotations hperform hframe => ?_
  match answer, hperform with
  | .error _, _ | .ok false, _ =>
    exact ⟨reading, trivial, .refl reading, nofun, nofun, rfl⟩
  | .ok true, hperform =>
    obtain ⟨hreply, rfl⟩ := answer_ok hperform
    refine ⟨known token, ?_, ⟨.inl rfl, .inl rfl, nofun⟩, nofun, nofun, rfl⟩
    simp only [answerFamily, perform, Bool.true_eq, Bool.and_eq_true, decide_eq_true_eq] at hreply
    exact hreply.1

omit [DecidableEq ι] in
/-- A phase that has drawn nothing, after one that has not either. -/
theorem phaseChange_of_free {past : FamilyHistory ι} {m : FamilyMoment ι} {φ' : RotationPhase}
    (hok : φ'.Ok m.proc (m :: past) m.after) (hdrew : φ'.drew = none) (hminted : ¬ φ.Minted)
    (hreplays : ∀ family, ¬ φ.Replays family) (hcall : m.call ≠ revokedAnswer)
    (hinserts : inserts m.call m.answer = none)
    (hreads : ∀ family, readsRevoked family m.call m.answer = true → φ' = .replaying family)
    (hlost : losesClaim m.call m.answer = true → φ' = .finished) : PhaseChange past m φ φ' where
  ok := hok
  drew jti h := by
    rw [hdrew] at h
    cases h
  draws row jti h := by
    rw [h] at hdrew
    cases hdrew
  secret jti h := by
    have h' := drew_of_secret h
    rw [hdrew] at h'
    cases h'
  owes token h := absurd (minted_of_owes h) hminted
  reads := hreads
  replays family h := absurd h (hreplays family)
  lost := hlost
  refuses h := absurd h hcall
  finished h := absurd (h ▸ trivial) hminted
  minted h := (h.elim hminted fun h => h hinserts).elim

/-- The row of the token is read. -/
theorem moves_findToken (token : RefreshToken) :
    (rotations start).Moves performFamily start i (known token)
      (.statement (.findToken token)) fun answer φ' =>
        (∀ row, answer = .ok (some row) →
          φ' = if row.revoked then replaying row.family else found row) ∧
        (answer = .ok none ∨ answer = .error () → φ' = known token) := by
  have hreplays : ∀ family, ¬ (known token).Replays family := by
    rintro family (h | h) <;> cases h
  refine moves_ok trivial nofun ⟨nofun, fun _ => rfl⟩
    fun Φ past chance reply s' hφ hinv hidle hheld hframe hperform => ?_
  match reply, hperform with
  | none, _ =>
    exact ⟨known token, phaseChange_of_free (hheld.frame hframe) rfl id hreplays nofun rfl
      nofun nofun, nofun, promises_of_none rfl rfl fun h => absurd h hidle, nofun, fun _ => rfl⟩
  | some row, hperform =>
    have hfind : (past.store start).tokens.find? (fun row => row.token == token) = some row :=
      (answer_ok hperform).1.symm
    have hrow : row ∈ (past.store start).tokens := List.mem_of_find?_eq_some hfind
    have htoken : row.token = token := by simpa using List.find?_some hfind
    cases hrevoked : row.revoked with
    | true =>
      refine ⟨replaying row.family, phaseChange_of_free trivial rfl id hreplays nofun rfl
        (fun family hreads => ?_) nofun, nofun, promises_of_none rfl rfl fun h => absurd h hidle,
        fun row' hrow' => ?_, fun h => ?_⟩
      · simp only [readsRevoked, Bool.and_eq_true, beq_iff_eq] at hreads
        rw [hreads.2]
      · cases hrow'
        rw [if_pos hrevoked]
      · rcases h with h | h <;> cases h
    | false =>
      refine ⟨found row, phaseChange_of_free ?_ rfl id hreplays nofun rfl
        (fun family hreads => ?_) nofun, nofun, promises_of_none rfl rfl fun h => absurd h hidle,
        fun row' hrow' => ?_, fun h => ?_⟩
      · refine RotationPhase.Ok.frame (φ := found row)
          ⟨(hinv.1.numbered.rows row hrow).1, htoken ▸ hheld, fun r hr hid => ?_⟩ hframe
        rw [hinv.1.numbered.ids r hr row hrow hid]
        exact ⟨rfl, rfl, rfl⟩
      · simp [readsRevoked, hrevoked] at hreads
      · cases hrow'
        rw [hrevoked]
        rfl
      · rcases h with h | h <;> cases h

/-- The claim: the row is live, and the request takes it on; or it is not, and the request is over. -/
theorem moves_claim (row : TokenRow) :
    (rotations start).Moves performFamily start i (found row)
      (.statement (.revokeIfLive row.id)) fun answer φ' =>
        (answer = .ok true → φ' = claimed row) ∧ (answer = .ok false → φ' = finished) ∧
          (answer = .error () → φ' = found row) := by
  have hreplays : ∀ family, ¬ (found row).Replays family := by
    rintro family (h | h) <;> cases h
  refine moves_ok trivial nofun ⟨nofun, nofun, fun _ => rfl⟩
    fun Φ past chance reply s' hφ hinv hidle hok hframe hperform => ?_
  match reply, hperform with
  | false, _ =>
    exact ⟨finished, phaseChange_of_free trivial rfl id hreplays nofun rfl nofun fun _ => rfl, nofun,
      promises_of_none rfl rfl fun h => absurd h hidle, nofun, fun _ => rfl, nofun⟩
  | true, hperform =>
    obtain ⟨-, hheld, hsame⟩ := hok
    obtain ⟨⟨r, hr, hid, hlive⟩, -⟩ := tokens_of_claims
      (m := (⟨i, past.store start, .statement (.revokeIfLive row.id), .ok true, s'⟩ : FamilyMoment ι))
      ⟨chance, (congrArg Prod.fst hperform).symm, (congrArg Prod.snd hperform).symm⟩ rfl
    have hrsame := hsame r hr hid
    have hsole : ∀ r' ∈ (past.store start).tokens, r'.id = row.id → r' = r := fun r' hr' hid' =>
      hinv.1.numbered.ids r' hr' r hr (hid'.trans hid.symm)
    have hunclaimed : ∀ m ∈ past, ∀ id, claims m.call m.answer = some id →
        ∀ r' ∈ m.before.tokens, r'.id = id → r'.token ≠ r.token := by
      intro m hm id hclaims r' hr' hid' hsame
      have hrevoked := (hinv.1.spent m hm id hclaims r' hr' hid').2 r hr (by rw [hsame])
      rw [hlive] at hrevoked
      cases hrevoked
    have hopen : ¬ FamilyEnded r.family past := by
      intro hended
      obtain ⟨j, howes⟩ := hinv.1.ended r.family hended r hr rfl hlive
      exact hinv.1.secret j r.token.jti row.token (secret_of_owes howes) hheld
        (by rw [hrsame.1])
    refine ⟨claimed row, phaseChange_of_free ?_ rfl id hreplays nofun rfl nofun nofun,
      fun row' hrow' => ?_, ⟨?_, ?_, nofun, fun hlost => absurd hlost hidle⟩, fun _ => rfl, nofun,
      nofun⟩
    · exact ⟨_, List.mem_cons_self, rfl, rfl, r, hr, hid, hrsame.2.1, hrsame.2.2⟩
    · cases hrow'
      exact .inr ⟨rfl, fun r' hr' hid' => (hsame r' hr' hid').2.1⟩
    · intro id hid' r' hr' hrid'
      cases hid'
      rw [hsole r' hr' hrid']
      exact hunclaimed
    · intro id hid' r' hr' hrid'
      cases hid'
      rw [hsole r' hr' hrid']
      refine ⟨hopen, fun heach hundisturbed hdead => ?_⟩
      have hrevoked := ((hinv.2 heach).checked r.family hundisturbed hdead).1 r hr rfl
      rw [hlive] at hrevoked
      cases hrevoked

/-- The nonce of the successor is drawn. -/
theorem moves_randomBytes (row : TokenRow) :
    (rotations start).Moves performFamily start i (claimed row) (.statement .randomBytes)
      fun answer φ' => (∀ jti, answer = .ok jti → φ' = drawn row jti) ∧
        (answer = .error () → φ' = claimed row) := by
  refine moves_ok trivial nofun ⟨nofun, fun _ => rfl⟩
    fun Φ past chance jti s' hφ hinv hidle hok hframe hperform => ?_
  obtain ⟨rfl, rfl⟩ := answer_ok hperform
  have hreplays : ∀ family, ¬ (claimed row).Replays family := by
    rintro family (h | h) <;> cases h
  refine ⟨drawn row (past.store start).nextRandom,
    ⟨⟨nofun, fun family h => absurd h (hreplays family), nofun, nofun, nofun, fun h =>
        (h.elim id fun h => h rfl).elim⟩, ClaimedBy.cons hok, fun jti hjti => ?_,
      fun row' jti hdrawn => ?_, fun jti hjti => ?_, nofun⟩,
    fun _ hrow => .inl ⟨hrow, rfl⟩, promises_of_none rfl rfl fun h => absurd h hidle,
    fun jti hjti => ?_, nofun⟩
  · cases hjti
    exact .inr ⟨Nat.le_refl _, Nat.lt_succ_self _⟩
  · cases hdrawn
    exact .inr (Nat.le_refl _)
  · cases hjti
    exact .inr (Nat.le_refl _)
  · cases hjti
    rfl

/-- The successor's row, one generation on. -/
theorem moves_insert {row : TokenRow} {token : RefreshToken} (hfamily : token.family = row.family)
    (expiresAt : ℕ) :
    (rotations start).Moves performFamily start i (drawn row token.jti)
      (.statement (.insertToken token (row.generation + 1) expiresAt)) fun answer φ' =>
        (answer = .ok () → φ' = written token) ∧
          (answer = .error () → φ' = drawn row token.jti) := by
  refine moves_answered nofun ⟨nofun, fun _ => rfl⟩
    fun Φ past chance _ s' hφ hinv hidle hperform => ?_
  have hok := hinv.1.ok i
  rw [hφ] at hok
  obtain ⟨-, hafter⟩ := answer_ok hperform
  let m : FamilyMoment ι := ⟨i, past.store start,
    .statement (.insertToken token (row.generation + 1) expiresAt), .ok (), s'⟩
  have hplain : Plain m := ⟨fun _ => rfl, fun _ => rfl, rfl, fun _ => rfl, rfl, nofun⟩
  refine ⟨⟨nofun, nofun, fun token' generation hinserts => ⟨fun hinserted => ?_, ?_⟩,
    fun h => absurd h hidle⟩, written token, ⟨?_, fun heach => ?_⟩, fun _ => rfl, nofun⟩
  · have hminted := hinv.1.told.minted i hinserted
    rw [hφ] at hminted
    exact hminted
  · cases hinserts
    exact ⟨row, hok, hfamily, rfl⟩
  · subst hafter
    exact hinv.1.inserted (m := m) rfl hplain hφ ⟨rfl, rfl, rfl, rfl⟩
  · subst hafter
    exact (hinv.2 heach).inserted (m := m) rfl hφ hfamily rfl (fun _ => rfl) rfl

/-- The session is touched: when a row is there, the family has not been signed out. -/
theorem moves_touch (token : RefreshToken) (expiresAt : ℕ) :
    (rotations start).Moves performFamily start i (written token)
      (.statement (.touchSession token.family expiresAt)) fun answer φ' =>
        (∀ touched, answer = .ok touched →
          φ' = if touched = 0 then stray token else established token) ∧
        (answer = .error () → φ' = stray token) := by
  refine moves_still (Calm.still trivial) nofun
    fun Φ past chance answer s' hφ hrotations hperform hframe => ?_
  have hreplays : ∀ family, ¬ (written token).Replays family := by
    rintro family (h | h) <;> cases h
  have hstray : (written token).Lapses (stray token) :=
    ⟨.inr ⟨rfl, .inr rfl⟩, .inl rfl, fun _ => trivial⟩
  match answer, hperform with
  | .error _, _ =>
    exact ⟨stray token, trivial, hstray, fun _ howes => .inl howes,
      fun family h => absurd h (hreplays family), nofun, fun _ => rfl⟩
  | .ok touched, hperform =>
    by_cases htouched : touched = (0 : ℕ)
    · refine ⟨stray token, trivial, hstray, fun _ howes => .inl howes,
        fun family h => absurd h (hreplays family), fun touched' h => ?_, nofun⟩
      cases h
      rw [if_pos htouched]
    · refine ⟨established token, trivial, ⟨.inr ⟨rfl, .inl rfl⟩, .inl rfl, fun _ => trivial⟩,
        fun token' howes => .inr fun row hrow hsame hended => ?_,
        fun family h => absurd h (hreplays family), fun touched' h => ?_, nofun⟩
      · -- a session row of the family was there, so it has not been ended
        cases howes
        exfalso
        obtain ⟨hreply, -⟩ := answer_ok hperform
        refine htouched (hreply.trans (List.countP_eq_zero.mpr fun session hsession hfamily => ?_))
        obtain ⟨old, hold, -, htoken, hrfamily, -, -⟩ := hframe.tokens.origin hrow
        have hout : SignedOut row.family past :=
          (hended.resolve_left fun h => Bool.false_ne_true h.1).signedOut
        refine hrotations.signedOut row.family hout session hsession ?_
        rw [← hrfamily, (hrotations.numbered.rows old hold).2.2, htoken, hsame]
        exact beq_iff_eq.mp hfamily
      · cases h
        rw [if_neg htouched]

/-- A successor that was not established: its session is deleted. -/
theorem moves_deleteStray (token : RefreshToken) :
    (rotations start).Moves performFamily start i (stray token)
      (.statement (.deleteSession token.family)) fun answer φ' =>
        (answer = .ok () → φ' = stray token) ∧ (answer = .error () → φ' = lost token) := by
  refine moves_still (Calm.still trivial) nofun
    fun Φ past chance answer s' hφ hrotations hperform hframe => ?_
  have hreplays : ∀ family, ¬ (stray token).Replays family := by
    rintro family (h | h) <;> cases h
  match answer, hperform with
  | .error _, _ =>
    exact ⟨lost token, ⟨_, List.mem_cons_self, beq_self_eq_true _⟩,
      ⟨.inr ⟨rfl, .inr rfl⟩, .inl rfl, fun _ => trivial⟩, fun _ howes => .inl howes, fun family h => absurd h (hreplays family), nofun, fun _ => rfl⟩
  | .ok _, _ =>
    exact ⟨stray token, trivial, .refl (stray token),
      fun _ howes => .inl howes, fun family h => absurd h (hreplays family), fun _ => rfl, nofun⟩

/-- A successor that was not established: its row is revoked, and the request is over. -/
theorem moves_revokeStray (token : RefreshToken) :
    (rotations start).Moves performFamily start i (stray token)
      (.statement (.revokeFamily token.family)) fun answer φ' =>
        (answer = .ok () → φ' = finished) ∧ (answer = .error () → φ' = lost token) := by
  refine moves_still (Calm.still trivial) nofun
    fun Φ past chance answer s' hφ hrotations hperform hframe => ?_
  have hreplays : ∀ family, ¬ (stray token).Replays family := by
    rintro family (h | h) <;> cases h
  match answer, hperform with
  | .error _, _ =>
    exact ⟨lost token, ⟨_, List.mem_cons_self, beq_self_eq_true _⟩,
      ⟨.inr ⟨rfl, .inr rfl⟩, .inl rfl, fun _ => trivial⟩, fun _ howes => .inl howes, fun family h => absurd h (hreplays family), nofun, fun _ => rfl⟩
  | .ok _, hperform =>
    refine ⟨finished, trivial, ⟨.inl rfl, .inl rfl, fun _ => trivial⟩, fun token' howes => .inr fun row hrow hsame _ => ?_,
      fun family h => absurd h (hreplays family), fun _ => rfl, nofun⟩
    cases howes
    obtain ⟨old, hold, -, htoken, hrfamily, -, -⟩ := hframe.tokens.origin hrow
    refine tokens_of_revokesRows
      (m := (⟨i, past.store start, .statement (.revokeFamily token.family), .ok (), s'⟩ :
        FamilyMoment ι))
      ⟨chance, congrArg Prod.fst hperform.symm, congrArg Prod.snd hperform.symm⟩
      (beq_self_eq_true _) row hrow ?_
    rw [← hrfamily, (hrotations.numbered.rows old hold).2.2, htoken, hsame]

/-! ### The calls of a revocation -/

/-- The first step of a revocation. -/
def endSessions : Option ℕ → FamilyCall
  | some family => .statement (.deleteSession family)
  | none => .statement .deleteSessions

/-- The second step of a revocation. -/
def revokeRows : Option ℕ → FamilyCall
  | some family => .statement (.revokeFamily family)
  | none => .statement .revokeTokens

theorem endsSession_endSessions {scope : Option ℕ} {family : ℕ} (h : ∀ f ∈ scope, f = family)
    (reply : FamilyReply (endSessions scope)) :
    endsSession family (endSessions scope) (.ok reply) = true := by
  cases scope with
  | none => rfl
  | some f => exact beq_iff_eq.mpr (h f rfl)

theorem revokesRows_revokeRows {scope : Option ℕ} {family : ℕ} (h : ∀ f ∈ scope, f = family)
    (reply : FamilyReply (revokeRows scope)) :
    revokesRows family (revokeRows scope) (.ok reply) = true := by
  cases scope with
  | none => rfl
  | some f => exact beq_iff_eq.mpr (h f rfl)

theorem calm_endSessions (scope : Option ℕ) : Calm (endSessions scope) := by
  cases scope <;> trivial

theorem calm_revokeRows (scope : Option ℕ) : Calm (revokeRows scope) := by
  cases scope <;> trivial

omit [DecidableEq ι] in
theorem owes_of_drew (h : φ.drew = none) : φ.owes = none := by
  cases φ <;> first | rfl | cases h

/-- The sessions of the scope are deleted. -/
theorem moves_endSessions {replay : Bool} {scope : Option ℕ} (hdrew : φ.drew = none)
    (hminted : ¬ φ.Minted) (hreplays : ∀ family, φ.Replays family → replay = true ∧ scope = some family) :
    (rotations start).Moves performFamily start i φ (endSessions scope) fun answer φ' =>
      (∀ reply, answer = .ok reply → φ' = burning replay scope) ∧ (answer = .error () → φ' = φ) := by
  have hover : φ ≠ finished := fun h => hminted (h ▸ trivial)
  refine moves_still (calm_endSessions scope).still hover
    fun Φ past chance answer s' hφ hrotations hperform hframe => ?_
  have howes : ∀ token, φ.owes ≠ some token := by simp [owes_of_drew hdrew]
  match answer, hperform with
  | .error _, _ =>
    exact ⟨φ, hφ ▸ (hrotations.ok i).frame hframe, .refl φ,
      fun token h => absurd h (howes token), fun _ h => .inl h, nofun, fun _ => rfl⟩
  | .ok reply, _ =>
    refine ⟨burning replay scope, fun family hscope => ?_, ⟨.inl rfl, .inl rfl, fun h => absurd h hminted⟩,
      fun token h => absurd h (howes token), fun family h => .inl ?_, fun _ _ => rfl, nofun⟩
    · exact ⟨_, List.mem_cons_self, endsSession_endSessions hscope reply⟩
    · obtain ⟨rfl, rfl⟩ := hreplays family h
      exact .inr rfl

/-- The rows of the scope are revoked: it is closed. -/
theorem moves_revokeRows (replay : Bool) (scope : Option ℕ) :
    (rotations start).Moves performFamily start i (burning replay scope) (revokeRows scope)
      fun answer φ' => (∀ reply, answer = .ok reply → φ' = closed scope) ∧
        (answer = .error () → φ' = burning replay scope) := by
  refine moves_still (calm_revokeRows scope).still nofun
    fun Φ past chance answer s' hφ hrotations hperform hframe => ?_
  have hout := hrotations.ok i
  rw [hφ] at hout
  match answer, hperform with
  | .error _, _ =>
    exact ⟨burning replay scope, hout.frame hframe, .refl _,
      fun _ h => .inl h, fun _ h => .inl h, nofun, fun _ => rfl⟩
  | .ok reply, _ =>
    have hended : ∀ family, (∀ f ∈ scope, f = family) →
        FamilyEnded family (⟨i, past.store start, revokeRows scope, .ok reply, s'⟩ :: past) :=
      fun family hscope => .inl ⟨revokesRows_revokeRows hscope reply, hout family hscope⟩
    refine ⟨closed scope, hended, ⟨.inl rfl, .inl rfl, nofun⟩, nofun, fun family h => .inr (.inl ?_),
      fun _ _ => rfl, nofun⟩
    rcases h with h | h
    · cases h
    · cases h
      refine hended family fun f hf => ?_
      cases hf
      rfl

/-- A replay looks for a live row: without one the family is dead. -/
theorem moves_liveRow (family : ℕ) :
    (rotations start).Moves performFamily start i (replaying family)
      (.statement (.familyHasLiveRow family)) fun answer φ' =>
        (answer = .ok false → φ' = finished) ∧
          (answer = .ok true ∨ answer = .error () → φ' = replaying family) := by
  refine moves_still (Calm.still trivial) nofun
    fun Φ past chance answer s' hφ hrotations hperform hframe => ?_
  match answer, hperform with
  | .error _, _ | .ok true, _ =>
    exact ⟨replaying family, trivial, .refl _, nofun, fun _ h => .inl h, nofun,
      fun _ => rfl⟩
  | .ok false, _ =>
    refine ⟨finished, trivial, ⟨.inl rfl, .inl rfl, fun _ => trivial⟩, nofun, fun f h => .inr (.inr ?_), fun _ => rfl, ?_⟩
    · rcases h with h | h <;> cases h
      exact ⟨_, List.mem_cons_self, beq_self_eq_true _⟩
    · rintro (h | h) <;> cases h

/-! ### The answer -/

/-- An answer that hands nothing out. That a token is revoked is not answered while a successor is
owed or a replay is dealt with. -/
theorem moves_respond {response : Response} (hcredentials : response.credentials = [])
    (hrevoked : response = .refused refreshTokenRevoked.1 refreshTokenRevoked.2 →
      φ.owes = none ∧ ∀ family, ¬ φ.Replays family) :
    (rotations start).Moves performFamily start i φ (.statement (.respond response)) fun _ φ' =>
      φ' = φ ∨ φ' = finished ∧ response = .refused refreshTokenRevoked.1 refreshTokenRevoked.2 := by
  refine moves_change fun Φ past chance answer s' hφ hinv hperform => ?_
  have hafter : (answerFamily chance.auth (.statement (.respond response)) (past.store start)).2 =
    s' := congrArg Prod.snd hperform
  have hframe : Frame (past.store start) s' := by
    rw [← hafter]
    refine frame_of_eq (Nat.le_refl _) ?_ rfl rfl
    show response.credentials ++ (past.store start).held = _
    rw [hcredentials, List.nil_append]
  have hpromises : Promises start past
      ⟨i, past.store start, .statement (.respond response), answer, s'⟩ :=
    promises_of_none rfl rfl fun _ => ⟨response, rfl⟩
  refine ⟨hframe, ?_⟩
  by_cases hresponse : response = .refused refreshTokenRevoked.1 refreshTokenRevoked.2
  · obtain ⟨howes, hreplays⟩ := hrevoked hresponse
    refine ⟨finished, ⟨⟨nofun, fun family h => absurd h (hreplays family), nofun,
      fun _ => ⟨rfl, fun family h => absurd h (hreplays family)⟩, fun _ => ⟨rfl, response, rfl⟩,
      fun _ => trivial⟩, trivial, nofun, nofun, nofun, fun token h => ?_⟩, nofun, hpromises, .inr ⟨rfl, hresponse⟩⟩
    rw [howes] at h
    cases h
  · refine ⟨φ, ⟨⟨nofun, fun _ h => .inl h, nofun, fun hcall => absurd ?_ hresponse,
      fun h => ⟨h, response, rfl⟩, fun h => h.resolve_right fun h => h rfl⟩,
      hφ ▸ (hinv.1.ok i).frame hframe, fun _ h => .inl h, fun _ _ h => .inl h, fun _ h => .inl h,
      fun _ h => .inl h⟩, fun row h => .inl ⟨h, rfl⟩, hpromises, .inl rfl⟩
    rw [revokedAnswer] at hcall
    injection hcall with hcall
    injection hcall

/-- The tokens whose row and session are there are handed out. -/
theorem moves_handOut (access : AccessToken) (token : RefreshToken) :
    (rotations start).Moves performFamily start i (established token)
      (.statement (.respond (.tokens access token))) fun _ φ' => φ' = handed token := by
  intro Φ past chance hφ hinv _
  let m := Pool.momentOf performFamily i chance (.statement (.respond (.tokens access token)))
    (past.store start)
  have hplain : Plain m := ⟨fun _ => rfl, fun _ => rfl, rfl, fun _ => rfl, rfl, nofun⟩
  have hheld : ∀ t, .refresh t ∈ m.after.held → t = token ∨ .refresh t ∈ m.before.held := by
    intro t ht
    rcases List.mem_append.mp (show Credential.refresh t ∈
      [.access access, .refresh token] ++ (past.store start).held from ht) with ht | ht
    · simp only [List.mem_cons, reduceCtorEq, Credential.refresh.injEq, List.not_mem_nil,
        or_false, false_or] at ht
      exact .inl ht
    · exact .inr ht
  have hhanded : Credential.refresh token ∈ m.after.held :=
    List.mem_append_left _ (List.mem_cons_of_mem _ List.mem_cons_self)
  refine ⟨promises_of_none rfl rfl fun _ => ⟨_, rfl⟩, handed token, ⟨?_, fun heach => ?_⟩, rfl⟩
  · exact hinv.1.handsOut (m := m) rfl hplain hφ
      ⟨rfl, rfl, rfl, fun credential h => List.mem_append_right _ h, hheld⟩ hhanded
  · exact (hinv.2 heach).thinned (m := m) rfl ⟨chance, rfl, rfl⟩ (thinned_refl _)
      fun row hrow => by cases hrow

end Moves

end Auth
