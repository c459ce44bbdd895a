import Impresspress.Auth.LinkUses

/-!
# A link works once

A link is stored once, for its number is drawn once. It is in the column or with the one redemption
that has taken it, so that no other can succeed by it. A redemption that fails gives its link back
when the column is clear, whatever was in the column in the meantime.

## Main definitions

* `Auth.Link`: a digest and the time that the link lasts until.
* `Auth.Stored`: a link that the account has been given.
* `Auth.Linked`: where the links are.

## Main results

* `Auth.linked_of_scripted`: the invariant, all along a run.
* `Auth.givenBack_of_returned`: a redemption that no longer holds its link has given it back.
* `Auth.givenBack_between`: a link that comes after a newer one was given back.
-/

namespace Auth

open Concurrent Links

variable {ι : Type} [DecidableEq ι]

abbrev LinkMoment (ι : Type) := Moment ι VersionStore (Outcome Unit LinkReply)

abbrev LinkHistory (ι : Type) := History ι VersionStore (Outcome Unit LinkReply)

/-- A link, as a row of the account carries it. -/
structure Link where
  tokenHash : String
  expiresAt : Option ℕ
  deriving DecidableEq, Repr

/-- The columns that a redemption clears. -/
def Link.clear : Link := ⟨"", none⟩

/-- The link that the account's row carries. -/
def VersionStore.column (s : VersionStore) : Link :=
  ⟨s.auth.user.resetToken, s.auth.user.resetTokenExpires⟩

/-! ## What a call does -/

/-- The number that the call drew. -/
def drawnNumber : (c : LinkCall) → Outcome Unit LinkReply c → Option ℕ
  | .version (.family (.statement .randomBytes)), .ok drawn => some drawn
  | _, _ => none

/-- The link that the call found. -/
def foundLink : (c : LinkCall) → Outcome Unit LinkReply c → Option Link
  | .version (.family (.statement (.findByResetToken tokenHash))), .ok (some expiresAt) =>
    some ⟨tokenHash, expiresAt⟩
  | _, _ => none

/-- The new link that the call stored. -/
def storedLink : (c : LinkCall) → Outcome Unit LinkReply c → Option Link
  | .setResetToken tokenHash expiresAt, .ok () => some ⟨tokenHash, expiresAt⟩
  | _, _ => none

/-- The digest of the link that the call took. -/
def takenLink : (c : LinkCall) → Outcome Unit LinkReply c → Option String
  | .version (.family (.statement (.takeResetToken tokenHash))), .ok true => some tokenHash
  | _, _ => none

/-- The link that the call gave back. The column takes it if it is clear. -/
def givenBack : (c : LinkCall) → Outcome Unit LinkReply c → Option Link
  | .version (.family (.statement (.restoreResetToken tokenHash expiresAt))), .ok () =>
    some ⟨tokenHash, expiresAt⟩
  | _, _ => none

/-- The column after a call. -/
def Link.after (link : Link) (c : LinkCall) (answer : Outcome Unit LinkReply c) : Link :=
  match storedLink c answer, takenLink c answer, givenBack c answer with
  | some stored, _, _ => stored
  | none, some _, _ => .clear
  | none, none, some given => if link.tokenHash = "" then given else link
  | none, none, none => link

section Calls

variable {chance : VersionChance} {c : LinkCall} {s : VersionStore}

/-- A call that fails says nothing. -/
theorem learns_error (c : LinkCall) : drawnNumber c (.error ()) = none ∧
    foundLink c (.error ()) = none ∧ storedLink c (.error ()) = none ∧
      takenLink c (.error ()) = none ∧ givenBack c (.error ()) = none := by
  cases c with
  | setResetToken => exact ⟨rfl, rfl, rfl, rfl, rfl⟩
  | version c =>
    cases c with
    | family c =>
      cases c with
      | statement c => cases c <;> exact ⟨rfl, rfl, rfl, rfl, rfl⟩
      | _ => exact ⟨rfl, rfl, rfl, rfl, rfl⟩
    | _ => exact ⟨rfl, rfl, rfl, rfl, rfl⟩

theorem column_answerLink :
    (answerLink chance c s).2.column = s.column.after c (.ok (answerLink chance c s).1) := by
  cases c with
  | setResetToken => rfl
  | version c =>
    cases c with
    | family c =>
      cases c with
      | statement c =>
        cases c with
        | takeResetToken tokenHash =>
          simp only [answerLink, answerVersion, answerFamily, perform]
          split <;> rfl
        | restoreResetToken tokenHash expiresAt =>
          simp only [answerLink, answerVersion, answerFamily, perform]
          split
          · next hclear => exact (if_pos hclear).symm
          · next hheld => exact (if_neg hheld).symm
        | insertCredential | insertKey =>
          simp only [answerLink, answerVersion, answerFamily, perform]
          split <;> rfl
        | _ => rfl
      | _ => rfl
    | createGrant | updateGrant =>
      simp only [answerLink, answerVersion]
      split <;> rfl
    | _ => rfl

theorem column_performLink : (performLink chance c s).2.column =
    s.column.after c (performLink chance c s).1 := by
  unfold performLink
  dsimp only
  split
  · obtain ⟨-, -, hstored, htaken, hgiven⟩ := learns_error c
    simp only [Link.after, hstored, htaken, hgiven]
    rfl
  · exact column_answerLink

theorem nextRandom_performLink :
    s.auth.nextRandom ≤ (performLink chance c s).2.auth.nextRandom := by
  unfold performLink
  dsimp only
  split
  · exact Nat.le_refl _
  · cases c with
    | setResetToken => exact Nat.le_refl _
    | version c =>
      cases c with
      | family c =>
        cases c with
        | statement c => exact nextRandom_perform
        | _ => exact Nat.le_refl _
      | createGrant | updateGrant =>
        simp only [answerLink, answerVersion]
        split <;> exact Nat.le_refl _
      | _ => exact Nat.le_refl _

/-- A link is taken out of the column. -/
theorem takenLink_performLink {tokenHash : String}
    (h : takenLink c (performLink chance c s).1 = some tokenHash) :
    s.column.tokenHash = tokenHash := by
  unfold performLink at h
  dsimp only at h
  split at h
  · cases (learns_error c).2.2.2.1.symm.trans h
  · cases c with
    | setResetToken => cases h
    | version c =>
      cases c with
      | family c =>
        cases c with
        | statement c =>
          cases c with
          | takeResetToken tokenHash' =>
            simp only [answerLink, answerVersion, answerFamily, perform] at h
            split at h
            · next hheld =>
              cases h
              exact hheld
            · cases h
          | _ => cases h
        | _ => cases h
      | _ => cases h

/-- A link is found in the column. -/
theorem foundLink_performLink {link : Link}
    (h : foundLink c (performLink chance c s).1 = some link) : s.column = link := by
  unfold performLink at h
  dsimp only at h
  split at h
  · cases (learns_error c).2.1.symm.trans h
  · cases c with
    | setResetToken => cases h
    | version c =>
      cases c with
      | family c =>
        cases c with
        | statement c =>
          cases c with
          | findByResetToken tokenHash =>
            simp only [answerLink, answerVersion, answerFamily, perform] at h
            split at h
            · next hheld =>
              cases h
              exact congrArg (Link.mk · s.column.expiresAt) hheld
            · cases h
          | _ => cases h
        | _ => cases h
      | _ => cases h

theorem drawnNumber_performLink {drawn : ℕ}
    (h : drawnNumber c (performLink chance c s).1 = some drawn) :
    drawn = s.auth.nextRandom ∧ (performLink chance c s).2.auth.nextRandom = drawn + 1 := by
  unfold performLink at h ⊢
  dsimp only at h ⊢
  split at h
  · cases (learns_error c).1.symm.trans h
  · next hruns =>
    rw [if_neg hruns]
    cases c with
    | setResetToken => cases h
    | version c =>
      cases c with
      | family c =>
        cases c with
        | statement c =>
          cases c with
          | randomBytes =>
            cases h
            exact ⟨rfl, rfl⟩
          | _ => cases h
        | _ => cases h
      | _ => cases h

end Calls

/-! ## How a phase was come to -/

section Phases

variable {φ : LinkPhase} {c : LinkCall} {answer : Outcome Unit LinkReply c}

theorem after_drew {drawn : ℕ} (h : φ.after c answer = .drew drawn) :
    drawnNumber c answer = some drawn ∨ φ = .drew drawn ∧ storedLink c answer = none := by
  unfold LinkPhase.after at h
  split at h
  · cases h
    exact .inl rfl
  · cases h
  · cases h
  · cases h
  · cases h
  · cases h
  · rename_i _ hstores _ _ _ _
    refine .inr ⟨h, ?_⟩
    cases c with
    | setResetToken => exact (hstores _ _ _ _ h rfl HEq.rfl).elim
    | version => rfl

theorem after_found {tokenHash : String} {expiresAt : ℕ}
    (h : φ.after c answer = .found tokenHash expiresAt) :
    foundLink c answer = some ⟨tokenHash, some expiresAt⟩ ∨ φ = .found tokenHash expiresAt := by
  unfold LinkPhase.after at h
  split at h
  · cases h
  · cases h
  · cases h
    exact .inl rfl
  · cases h
  · cases h
  · cases h
  · exact .inr h

theorem after_took {tokenHash : String} {expiresAt : ℕ}
    (h : φ.after c answer = .took tokenHash expiresAt) :
    (φ = .found tokenHash expiresAt ∧ ∃ taken, takenLink c answer = some taken) ∨
      φ = .took tokenHash expiresAt ∧ givenBack c answer = none := by
  unfold LinkPhase.after at h
  split at h
  · cases h
  · cases h
  · cases h
  · cases h
    exact .inl ⟨rfl, _, rfl⟩
  · cases h
  · cases h
  · rename_i _ _ _ _ hgives _
    refine .inr ⟨h, ?_⟩
    cases c with
    | setResetToken => rfl
    | version c =>
      cases c with
      | family c =>
        cases c with
        | statement c =>
          cases c with
          | restoreResetToken =>
            cases answer with
            | ok => exact (hgives _ _ _ _ _ h rfl HEq.rfl).elim
            | error => rfl
          | _ => rfl
        | _ => rfl
      | _ => rfl

theorem after_of_takenLink {tokenHash taken : String} {expiresAt : ℕ}
    (h : takenLink c answer = some taken) :
    (LinkPhase.found tokenHash expiresAt).after c answer = .took tokenHash expiresAt := by
  unfold takenLink at h
  split at h
  · rfl
  · cases h

/-- A link that is given back to a clear column is in it. -/
theorem after_of_givenBack {column link : Link} (h : givenBack c answer = some link)
    (hclear : column.tokenHash = "") : column.after c answer = link := by
  unfold givenBack at h
  split at h
  · cases h
    exact if_pos hclear
  · cases h

theorem eq_of_givenBack {link : Link} {tokenHash : String} {expiresAt : Option ℕ}
    (hcall : c = .statement (.restoreResetToken tokenHash expiresAt))
    (h : givenBack c answer = some link) : link = ⟨tokenHash, expiresAt⟩ := by
  subst hcall
  cases answer with
  | ok => exact (Option.some.inj h).symm
  | error => cases h

variable {services : LinkServices}

theorem drew_of_storedLink {link : Link} (hpermits : φ.permits services c)
    (h : storedLink c answer = some link) :
    ∃ drawn, φ = .drew drawn ∧ link.tokenHash = services.digest drawn := by
  unfold storedLink at h
  split at h
  · cases h
    exact hpermits
  · cases h

theorem found_of_takenLink {tokenHash : String} (hpermits : φ.permits services c)
    (h : takenLink c answer = some tokenHash) : ∃ expiresAt, φ = .found tokenHash expiresAt := by
  unfold takenLink at h
  split at h
  · cases h
    exact hpermits
  · cases h

theorem took_of_givenBack {link : Link} (hpermits : φ.permits services c)
    (h : givenBack c answer = some link) :
    ∃ expiresAt, φ = .took link.tokenHash expiresAt ∧ link.expiresAt = some expiresAt := by
  unfold givenBack at h
  split at h
  · cases h
    exact hpermits
  · cases h

theorem nonempty_of_foundLink {link : Link} (hpermits : φ.permits services c)
    (h : foundLink c answer = some link) : link.tokenHash ≠ "" := by
  unfold foundLink at h
  split at h
  · cases h
    exact hpermits
  · cases h

/-- A call does one thing with a link at most. -/
theorem storedLink_of_drawnNumber {drawn : ℕ} (h : drawnNumber c answer = some drawn) :
    storedLink c answer = none := by
  unfold drawnNumber at h
  split at h
  · rfl
  · cases h

theorem storedLink_of_takenLink {tokenHash : String} (h : takenLink c answer = some tokenHash) :
    storedLink c answer = none := by
  unfold takenLink at h
  split at h
  · rfl
  · cases h

end Phases

/-! ## The invariant -/

/-- The phase that request `i` is in. -/
def linkPhase (services : LinkServices) (i : ι) (past : LinkHistory ι) : LinkPhase :=
  (past.own i).phase (linkStates services) .begun

/-- A link that the account has been given. -/
def Stored (start : VersionStore) (past : LinkHistory ι) (link : Link) : Prop :=
  (link = start.column ∧ link.tokenHash ≠ "") ∨
    ∃ m ∈ past, storedLink m.call m.answer = some link

/-- The account has no link, or one whose number was drawn. -/
def LinkServices.Issued (services : LinkServices) (start : VersionStore) : Prop :=
  start.column.tokenHash = "" ∨
    ∃ drawn < start.auth.nextRandom, start.column.tokenHash = services.digest drawn

/-- Where the links are: numbers that were drawn are used once, the column has a link that was
stored, and what a request has found was stored. The one that has taken a link has it alone. -/
structure Linked (services : LinkServices) (start : VersionStore) (past : LinkHistory ι) :
    Prop where
  issued : ∀ link, Stored start past link →
    ∃ drawn < (past.store start).auth.nextRandom, link.tokenHash = services.digest drawn
  unique : ∀ link link', Stored start past link → Stored start past link' →
    link.tokenHash = link'.tokenHash → link = link'
  column : (past.store start).column.tokenHash = "" ∨ Stored start past (past.store start).column
  drew : ∀ i drawn, linkPhase services i past = .drew drawn →
    drawn < (past.store start).auth.nextRandom ∧
      ∀ link, Stored start past link → link.tokenHash ≠ services.digest drawn
  apart : ∀ i j drawn, linkPhase services i past = .drew drawn →
    linkPhase services j past = .drew drawn → i = j
  found : ∀ i tokenHash expiresAt, linkPhase services i past = .found tokenHash expiresAt →
    Stored start past ⟨tokenHash, some expiresAt⟩
  took : ∀ i tokenHash expiresAt, linkPhase services i past = .took tokenHash expiresAt →
    Stored start past ⟨tokenHash, some expiresAt⟩ ∧ (past.store start).column.tokenHash ≠ tokenHash
  alone : ∀ i j tokenHash expiresAt expiresAt',
    linkPhase services i past = .took tokenHash expiresAt →
      linkPhase services j past = .took tokenHash expiresAt' → i = j

variable {services : LinkServices} {start : VersionStore} {past : LinkHistory ι} {m : LinkMoment ι}
  {i : ι}

/-- A moment of a run of the requests. -/
abbrev LinkScripted (services : LinkServices) (start : VersionStore) :
    LinkHistory ι → LinkMoment ι → Prop :=
  Scripted performLink start ((linkStates services).issues fun _ => .begun)

theorem linkPhase_cons_of_ne (h : m.proc ≠ i) :
    linkPhase services i (m :: past) = linkPhase services i past := by
  rw [linkPhase, History.own_cons_of_ne h, linkPhase]

theorem linkPhase_cons_self (past : LinkHistory ι) (m : LinkMoment ι) :
    linkPhase services m.proc (m :: past) =
      (linkPhase services m.proc past).after m.call m.answer := by
  rw [linkPhase, History.own_cons_self rfl]
  rfl

theorem linkPermits_of_scripted (hm : LinkScripted services start past m) :
    (linkPhase services m.proc past).permits services m.call :=
  hm.issues

theorem link_moment (hm : LinkScripted services start past m) : ∃ chance,
    m.answer = (performLink chance m.call (past.store start)).1 ∧
      m.after = (performLink chance m.call (past.store start)).2 := by
  obtain ⟨chance, hanswer, hafter⟩ := hm.happened
  rw [hm.before] at hanswer hafter
  exact ⟨chance, hanswer, hafter⟩

theorem column_after (hm : LinkScripted services start past m) :
    m.after.column = (past.store start).column.after m.call m.answer := by
  obtain ⟨chance, hanswer, hafter⟩ := link_moment hm
  rw [hafter, hanswer]
  exact column_performLink

theorem linkRandom_le_after (hm : LinkScripted services start past m) :
    (past.store start).auth.nextRandom ≤ m.after.auth.nextRandom := by
  obtain ⟨chance, -, hafter⟩ := link_moment hm
  rw [hafter]
  exact nextRandom_performLink

omit [DecidableEq ι] in
theorem stored_cons_iff {link : Link} : Stored start (m :: past) link ↔
    Stored start past link ∨ storedLink m.call m.answer = some link := by
  rw [Stored, Stored, or_assoc]
  refine or_congr_right ?_
  simp only [List.mem_cons, exists_eq_or_imp]
  exact or_comm

omit [DecidableEq ι] in
theorem Stored.cons {link : Link} (h : Stored start past link) (m : LinkMoment ι) :
    Stored start (m :: past) link :=
  stored_cons_iff.mpr (.inl h)

omit [DecidableEq ι] in
theorem Stored.append {link : Link} (h : Stored start past link) (later : LinkHistory ι) :
    Stored start (later ++ past) link :=
  h.imp_right fun ⟨m, hm, hstored⟩ => ⟨m, List.mem_append_right _ hm, hstored⟩

theorem Linked.nonempty (h : Linked services start past) {link : Link}
    (hlink : Stored start past link) : link.tokenHash ≠ "" := by
  obtain ⟨drawn, -, hdigest⟩ := h.issued link hlink
  rw [hdigest]
  exact services.nonempty _

/-! ### How a phase was come to in a run -/

theorem drew_cons {drawn : ℕ} (h : linkPhase services i (m :: past) = .drew drawn) :
    (m.proc = i ∧ drawnNumber m.call m.answer = some drawn) ∨
      linkPhase services i past = .drew drawn ∧
        (m.proc = i → storedLink m.call m.answer = none) := by
  by_cases hproc : m.proc = i
  · subst hproc
    rw [linkPhase_cons_self] at h
    exact (after_drew h).imp (⟨rfl, ·⟩) fun ⟨hphase, hstored⟩ => ⟨hphase, fun _ => hstored⟩
  · rw [linkPhase_cons_of_ne hproc] at h
    exact .inr ⟨h, fun hsame => absurd hsame hproc⟩

theorem found_cons {tokenHash : String} {expiresAt : ℕ}
    (h : linkPhase services i (m :: past) = .found tokenHash expiresAt) :
    foundLink m.call m.answer = some ⟨tokenHash, some expiresAt⟩ ∨
      linkPhase services i past = .found tokenHash expiresAt := by
  by_cases hproc : m.proc = i
  · subst hproc
    rw [linkPhase_cons_self] at h
    exact after_found h
  · rw [linkPhase_cons_of_ne hproc] at h
    exact .inr h

theorem took_cons (hm : LinkScripted services start past m) {tokenHash : String} {expiresAt : ℕ}
    (h : linkPhase services i (m :: past) = .took tokenHash expiresAt) :
    (m.proc = i ∧ linkPhase services i past = .found tokenHash expiresAt ∧
        takenLink m.call m.answer = some tokenHash) ∨
      linkPhase services i past = .took tokenHash expiresAt ∧
        (givenBack m.call m.answer = none ∨ m.proc ≠ i) := by
  by_cases hproc : m.proc = i
  · subst hproc
    rw [linkPhase_cons_self] at h
    rcases after_took h with ⟨hphase, taken, htaken⟩ | ⟨hphase, hgiven⟩
    · obtain ⟨expiresAt', hphase'⟩ := found_of_takenLink (linkPermits_of_scripted hm) htaken
      cases hphase.symm.trans hphase'
      exact .inl ⟨rfl, hphase, htaken⟩
    · exact .inr ⟨hphase, .inl hgiven⟩
  · rw [linkPhase_cons_of_ne hproc] at h
    exact .inr ⟨h, .inr hproc⟩

theorem drawn_moment (hm : LinkScripted services start past m) {drawn : ℕ}
    (h : drawnNumber m.call m.answer = some drawn) :
    drawn = (past.store start).auth.nextRandom ∧ m.after.auth.nextRandom = drawn + 1 := by
  obtain ⟨chance, hanswer, hafter⟩ := link_moment hm
  rw [hanswer] at h
  rw [hafter]
  exact drawnNumber_performLink h

theorem found_moment (hm : LinkScripted services start past m) {link : Link}
    (h : foundLink m.call m.answer = some link) : (past.store start).column = link := by
  obtain ⟨chance, hanswer, -⟩ := link_moment hm
  rw [hanswer] at h
  exact foundLink_performLink h

theorem taken_moment (hm : LinkScripted services start past m) {tokenHash : String}
    (h : takenLink m.call m.answer = some tokenHash) :
    (past.store start).column.tokenHash = tokenHash := by
  obtain ⟨chance, hanswer, -⟩ := link_moment hm
  rw [hanswer] at h
  exact takenLink_performLink h

/-- Whoever takes a link clears the column. -/
theorem column_of_taken (hm : LinkScripted services start past m) {tokenHash : String}
    (h : takenLink m.call m.answer = some tokenHash) : m.after.column = .clear := by
  rw [column_after hm, Link.after, storedLink_of_takenLink h, h]

/-! ### One call -/

/-- A call stores what is drawn, and the number is new. -/
theorem Linked.fresh (h : Linked services start past) (hm : LinkScripted services start past m)
    {link : Link} (hstored : storedLink m.call m.answer = some link) :
    ∃ drawn, linkPhase services m.proc past = .drew drawn ∧
      link.tokenHash = services.digest drawn ∧
      ∀ link', Stored start past link' → link'.tokenHash ≠ link.tokenHash := by
  obtain ⟨drawn, hphase, hdigest⟩ := drew_of_storedLink (linkPermits_of_scripted hm) hstored
  exact ⟨drawn, hphase, hdigest, fun link' hlink' =>
    hdigest ▸ (h.drew m.proc drawn hphase).2 link' hlink'⟩

/-- Where the column comes from. -/
theorem Linked.column_step (h : Linked services start past)
    (hm : LinkScripted services start past m) :
    m.after.column.tokenHash = "" ∨ Stored start (m :: past) m.after.column := by
  rw [column_after hm]
  have hkept : (past.store start).column.tokenHash = "" ∨
      Stored start (m :: past) (past.store start).column := h.column.imp_right (·.cons m)
  unfold Link.after
  split
  · next stored hstored => exact .inr (stored_cons_iff.mpr (.inr hstored))
  · exact .inl rfl
  · next given _ _ hgiven =>
    split
    · obtain ⟨expiresAt, hphase, hexpires⟩ :=
        took_of_givenBack (linkPermits_of_scripted hm) hgiven
      have hlink : (⟨given.tokenHash, some expiresAt⟩ : Link) = given := by rw [← hexpires]
      exact .inr (hlink ▸ (h.took _ _ _ hphase).1.cons m)
    · exact hkept
  · exact hkept

/-- A link that a request has taken does not come into the column by a call of another. -/
theorem Linked.column_other (h : Linked services start past)
    (hm : LinkScripted services start past m) {tokenHash : String} {expiresAt : ℕ}
    (hphase : linkPhase services i past = .took tokenHash expiresAt)
    (hother : givenBack m.call m.answer = none ∨ m.proc ≠ i) :
    m.after.column.tokenHash ≠ tokenHash := by
  obtain ⟨hstored, hcolumn⟩ := h.took i tokenHash expiresAt hphase
  rw [column_after hm]
  unfold Link.after
  split
  · next stored hnew =>
    obtain ⟨-, -, -, hfresh⟩ := h.fresh hm hnew
    exact (hfresh _ hstored).symm
  · exact (h.nonempty hstored).symm
  · next given _ _ hgiven =>
    split
    · obtain ⟨expiresAt', hphase', -⟩ := took_of_givenBack (linkPermits_of_scripted hm) hgiven
      rcases hother with hnone | hne
      · cases hnone.symm.trans hgiven
      · intro hsame
        exact hne (h.alone m.proc i _ _ _ (hsame ▸ hphase') hphase)
    · exact hcolumn
  · exact hcolumn

/-- A call keeps every link where it says. -/
theorem Linked.step (h : Linked services start past) (hm : LinkScripted services start past m) :
    Linked services start (m :: past) where
  issued link hlink := by
    have hle := linkRandom_le_after hm
    rcases stored_cons_iff.mp hlink with hlink | hnew
    · obtain ⟨drawn, hlt, hdigest⟩ := h.issued link hlink
      exact ⟨drawn, hlt.trans_le hle, hdigest⟩
    · obtain ⟨drawn, hphase, hdigest, -⟩ := h.fresh hm hnew
      exact ⟨drawn, ((h.drew _ _ hphase).1).trans_le hle, hdigest⟩
  unique link link' hlink hlink' hsame := by
    rcases stored_cons_iff.mp hlink with hlink | hnew
    · rcases stored_cons_iff.mp hlink' with hlink' | hnew'
      · exact h.unique link link' hlink hlink' hsame
      · obtain ⟨-, -, -, hfresh⟩ := h.fresh hm hnew'
        exact absurd hsame (hfresh link hlink)
    · obtain ⟨-, -, -, hfresh⟩ := h.fresh hm hnew
      rcases stored_cons_iff.mp hlink' with hlink' | hnew'
      · exact absurd hsame.symm (hfresh link' hlink')
      · exact Option.some.inj (hnew.symm.trans hnew')
  column := h.column_step hm
  drew i drawn hi := by
    have hle := linkRandom_le_after hm
    rcases drew_cons hi with ⟨-, hdrawn⟩ | ⟨hphase, hown⟩
    · obtain ⟨rfl, hnext⟩ := drawn_moment hm hdrawn
      refine ⟨hnext ▸ Nat.lt_succ_self _, fun link hlink hsame => ?_⟩
      rcases stored_cons_iff.mp hlink with hlink | hnew
      · obtain ⟨drawn', hlt, hdigest⟩ := h.issued link hlink
        exact hlt.ne (services.distinct _ _ (hdigest.symm.trans hsame))
      · cases (storedLink_of_drawnNumber hdrawn).symm.trans hnew
    · obtain ⟨hlt, hunused⟩ := h.drew i drawn hphase
      refine ⟨hlt.trans_le hle, fun link hlink hsame => ?_⟩
      rcases stored_cons_iff.mp hlink with hlink | hnew
      · exact hunused link hlink hsame
      · obtain ⟨drawn', hphase', hdigest, -⟩ := h.fresh hm hnew
        cases services.distinct _ _ (hdigest.symm.trans hsame)
        cases (hown (h.apart _ _ _ hphase' hphase)).symm.trans hnew
  apart i j drawn hi hj := by
    rcases drew_cons hi with ⟨hproc, hdrawn⟩ | ⟨hphase, -⟩
    · rcases drew_cons hj with ⟨hproc', -⟩ | ⟨hphase', -⟩
      · exact hproc.symm.trans hproc'
      · exact absurd (drawn_moment hm hdrawn).1 (h.drew j drawn hphase').1.ne
    · rcases drew_cons hj with ⟨-, hdrawn⟩ | ⟨hphase', -⟩
      · exact absurd (drawn_moment hm hdrawn).1 (h.drew i drawn hphase).1.ne
      · exact h.apart i j drawn hphase hphase'
  found i tokenHash expiresAt hi := by
    rcases found_cons hi with hfound | hphase
    · have hlink := found_moment hm hfound
      rcases h.column with hclear | hstored
      · exact absurd (hlink ▸ hclear) (nonempty_of_foundLink (linkPermits_of_scripted hm) hfound)
      · exact (hlink ▸ hstored).cons m
    · exact (h.found i _ _ hphase).cons m
  took i tokenHash expiresAt hi := by
    rcases took_cons hm hi with ⟨-, hphase, htaken⟩ | ⟨hphase, hother⟩
    · have hstored := h.found i _ _ hphase
      refine ⟨hstored.cons m, ?_⟩
      rw [History.store_cons, column_of_taken hm htaken]
      exact (h.nonempty hstored).symm
    · exact ⟨(h.took i _ _ hphase).1.cons m, h.column_other hm hphase hother⟩
  alone i j tokenHash expiresAt expiresAt' hi hj := by
    -- a link that is taken was in the column, so nobody else has it
    rcases took_cons hm hi with ⟨hproc, -, htaken⟩ | ⟨hphase, -⟩
    · rcases took_cons hm hj with ⟨hproc', -, -⟩ | ⟨hphase', -⟩
      · exact hproc.symm.trans hproc'
      · exact absurd (taken_moment hm htaken) (h.took j _ _ hphase').2
    · rcases took_cons hm hj with ⟨-, -, htaken⟩ | ⟨hphase', -⟩
      · exact absurd (taken_moment hm htaken) (h.took i _ _ hphase).2
      · exact h.alone i j _ _ _ hphase hphase'

theorem linked_nil (hstart : services.Issued start) :
    Linked services start ([] : LinkHistory ι) where
  issued := by
    rintro link (⟨rfl, hne⟩ | ⟨m, hm, -⟩)
    · exact hstart.resolve_left hne
    · cases hm
  unique := by
    rintro link link' (⟨rfl, -⟩ | ⟨m, hm, -⟩) (⟨rfl, -⟩ | ⟨m, hm, -⟩) -
    · rfl
    · cases hm
    · cases hm
    · cases hm
  column := by
    by_cases hclear : start.column.tokenHash = ""
    · exact .inl hclear
    · exact .inr (.inl ⟨rfl, hclear⟩)
  drew := nofun
  apart := nofun
  found := nofun
  took := nofun
  alone := nofun

/-- The invariant holds all along a run. -/
theorem linked_of_scripted (hstart : services.Issued start)
    (h : Along (LinkScripted services start) past) : Linked services start past := by
  induction past with
  | nil => exact linked_nil hstart
  | cons m past ih => exact (ih h.2).step h.1

/-! ## What becomes of a link -/

variable {take back : LinkMoment ι} {later between : LinkHistory ι} {tokenHash : String}
  {expiresAt : ℕ}

/-- A request that takes a link has found it as the column has it. -/
theorem Linked.taken (h : Linked services start past) (hm : LinkScripted services start past m)
    (htaken : takenLink m.call m.answer = some tokenHash) : ∃ expiresAt,
      m.before.column = ⟨tokenHash, some expiresAt⟩ ∧
        linkPhase services m.proc (m :: past) = .took tokenHash expiresAt := by
  obtain ⟨expiresAt, hphase⟩ := found_of_takenLink (linkPermits_of_scripted hm) htaken
  have hstored := h.found m.proc _ _ hphase
  have hcolumn := taken_moment hm htaken
  refine ⟨expiresAt, ?_, ?_⟩
  · rw [hm.before]
    rcases h.column with hclear | hstored'
    · exact absurd (hcolumn.symm.trans hclear) (h.nonempty hstored)
    · exact h.unique _ _ hstored' hstored hcolumn
  · rw [linkPhase_cons_self, hphase, after_of_takenLink htaken]

/-- A request that holds a link has taken it. -/
theorem taken_of_took (h : Along (LinkScripted services start) past)
    (hphase : linkPhase services i past = .took tokenHash expiresAt) :
    ∃ take ∈ past, take.proc = i ∧ takenLink take.call take.answer = some tokenHash := by
  induction past with
  | nil => cases hphase
  | cons m past ih =>
    rcases took_cons h.1 hphase with ⟨hproc, -, htaken⟩ | ⟨hold, -⟩
    · exact ⟨m, List.mem_cons_self, hproc, htaken⟩
    · obtain ⟨take, hmem, htake⟩ := ih h.2 hold
      exact ⟨take, List.mem_cons_of_mem _ hmem, htake⟩

/-- Only giving a link back ends holding it. -/
theorem restores_of_after_ne {c : LinkCall} {answer : Outcome Unit LinkReply c}
    (h : (LinkPhase.took tokenHash expiresAt).after c answer ≠ .took tokenHash expiresAt)
    (hpermits : (LinkPhase.took tokenHash expiresAt).permits services c) :
    c = .statement (.restoreResetToken tokenHash (some expiresAt)) := by
  cases c with
  | setResetToken => exact absurd rfl h
  | version c =>
    cases c with
    | family c =>
      cases c with
      | statement c =>
        cases c with
        | restoreResetToken =>
          obtain ⟨_, hphase, rfl⟩ := hpermits
          cases hphase
          rfl
        | _ => exact absurd rfl h
      | _ => exact absurd rfl h
    | _ => exact absurd rfl h

/-- A request that holds its link no longer has given it back. -/
theorem givenBack_of_returned {earlier : LinkHistory ι}
    (h : Along (LinkScripted services start) (later ++ earlier))
    (htook : linkPhase services i earlier = .took tokenHash expiresAt)
    (hreturned : linkPhase services i (later ++ earlier) ≠ .took tokenHash expiresAt) :
    ∃ after back between, later = after ++ back :: between ∧ back.proc = i ∧
      back.call = .statement (.restoreResetToken tokenHash (some expiresAt)) := by
  induction later with
  | nil => exact absurd htook hreturned
  | cons m later ih =>
    by_cases hheld : linkPhase services i (later ++ earlier) = .took tokenHash expiresAt
    · by_cases hproc : m.proc = i
      · subst hproc
        rw [List.cons_append, linkPhase_cons_self, hheld] at hreturned
        have hpermits : (linkPhase services m.proc (later ++ earlier)).permits services m.call :=
          linkPermits_of_scripted h.1
        rw [hheld] at hpermits
        exact ⟨[], m, later, rfl, rfl, restores_of_after_ne hreturned hpermits⟩
      · rw [List.cons_append, linkPhase_cons_of_ne hproc] at hreturned
        exact absurd hheld hreturned
    · obtain ⟨after, back, between, rfl, hback⟩ := ih h.2 hheld
      exact ⟨m :: after, back, between, rfl, hback⟩

/-- The column stays clear while no link is stored or given back. -/
theorem column_clear {earlier : LinkHistory ι}
    (h : Along (LinkScripted services start) (between ++ earlier))
    (hclear : (earlier.store start).column.tokenHash = "")
    (hnone : ∀ m ∈ between, storedLink m.call m.answer = none ∧ givenBack m.call m.answer = none) :
    ((between ++ earlier).store start).column.tokenHash = "" := by
  induction between with
  | nil => exact hclear
  | cons m between ih =>
    have hbefore := ih h.2 fun m' hm' => hnone m' (List.mem_cons_of_mem _ hm')
    obtain ⟨hstored, hgiven⟩ := hnone m List.mem_cons_self
    rw [List.cons_append, History.store_cons, column_after h.1, Link.after, hstored, hgiven]
    cases takenLink m.call m.answer with
    | none => exact hbefore
    | some _ => rfl

/-- An older link stays out of the column, unless it is given back when the column is clear. -/
theorem givenBack_between (hstart : services.Issued start)
    (h : Along (LinkScripted services start) (between ++ m :: past)) {older newer : Link}
    (hnewer : storedLink m.call m.answer = some newer) (holder : Stored start past older) :
    ((between ++ m :: past).store start).column.tokenHash ≠ older.tokenHash ∨
      ∃ back ∈ between, givenBack back.call back.answer = some older ∧
        back.before.column.tokenHash = "" := by
  induction between with
  | nil =>
    obtain ⟨-, -, -, hfresh⟩ := (linked_of_scripted hstart h.2).fresh h.1 hnewer
    rw [List.nil_append, History.store_cons, column_after h.1, Link.after, hnewer]
    exact .inl (hfresh older holder).symm
  | cons later between ih =>
    rcases ih h.2 with hcolumn | ⟨back, hmem, hback⟩
    · have hlinked : Linked services start (between ++ m :: past) := linked_of_scripted hstart h.2
      have holder' : Stored start (between ++ m :: past) older := (holder.cons m).append between
      rw [List.cons_append, History.store_cons, column_after h.1, Link.after]
      split
      · next stored hstored =>
        obtain ⟨-, -, -, hfresh⟩ := hlinked.fresh h.1 hstored
        exact .inl (hfresh older holder').symm
      · exact .inl (hlinked.nonempty holder').symm
      · next given _ _ hgiven =>
        split
        · next hclear =>
          by_cases hsame : given.tokenHash = older.tokenHash
          · obtain ⟨expiresAt, hphase, hexpires⟩ :=
              took_of_givenBack (linkPermits_of_scripted h.1) hgiven
            have hlink : (⟨given.tokenHash, some expiresAt⟩ : Link) = given := by rw [← hexpires]
            have hgivenStored := (hlinked.took _ _ _ hphase).1
            rw [hlink] at hgivenStored
            rw [hlinked.unique _ _ hgivenStored holder' hsame] at hgiven
            exact .inr ⟨later, List.mem_cons_self, hgiven, by rw [h.1.before]; exact hclear⟩
          · exact .inl hsame
        · exact .inl hcolumn
      · exact .inl hcolumn
    · exact .inr ⟨back, List.mem_cons_of_mem _ hmem, hback⟩

/-- What a link that was taken has come to, once its redemption has failed. -/
theorem returned_of_failed (hstart : services.Issued start)
    (h : Along (LinkScripted services start) (later ++ take :: past))
    (htaken : takenLink take.call take.answer = some tokenHash)
    (hfailed : ∀ tokenHash' expiresAt,
      linkPhase services take.proc (later ++ take :: past) ≠ .took tokenHash' expiresAt) :
    ∃ after back between, later = after ++ back :: between ∧ back.proc = take.proc ∧
      back.call = .statement (.restoreResetToken tokenHash take.before.column.expiresAt) ∧
      (givenBack back.call back.answer ≠ none →
        (∀ m ∈ between,
          storedLink m.call m.answer = none ∧ givenBack m.call m.answer = none) →
        back.after.column = take.before.column) := by
  have htook : Along (LinkScripted services start) (take :: past) := h.earlier
  obtain ⟨expiresAt, hcolumn, hphase⟩ := (linked_of_scripted hstart htook.2).taken htook.1 htaken
  obtain ⟨after, back, between, rfl, hproc, hcall⟩ :=
    givenBack_of_returned h hphase (hfailed _ _)
  refine ⟨after, back, between, rfl, hproc, by rw [hcall, hcolumn], fun hruns hnone => ?_⟩
  have hback : Along (LinkScripted services start) (back :: (between ++ take :: past)) := by
    rw [List.append_assoc, List.cons_append] at h
    exact h.earlier
  have hclear := column_clear hback.2 (by rw [History.store_cons, column_of_taken htook.1 htaken]; rfl)
    hnone
  obtain ⟨given, hgiven⟩ := Option.ne_none_iff_exists'.mp hruns
  rw [column_after hback.1, after_of_givenBack hgiven hclear, hcolumn, eq_of_givenBack hcall hgiven]

/-! ## Links that are redeemed -/

/-- For any requests in any processes, along any schedule:

* a redemption that succeeds has taken its link, and no other redemption of the link succeeds;
* a redemption that has taken its link and fails gives it back. When that statement runs, and no link
  was stored or given back since the link was taken, the account has the link as it had it before;
* once a newer link is stored, an older one is taken only if it was given back since, at a time when
  the account had no link. -/
theorem links_redeemed (services : LinkServices) (settings : Settings) {start : VersionStore}
    (hstart : services.Issued start) (requests : ι → ℕ × LinkRequest)
    (schedule : List (ι × VersionChance)) :
    let run := linkRun services settings start requests schedule
    (∀ i token new, (requests i).2 = .redeem token new → run.running i = .done (.ok ()) →
      (∃ take ∈ run.history, take.proc = i ∧
        takenLink take.call take.answer = some (services.sha256Hex token)) ∧
      ∀ j token' new', (requests j).2 = .redeem token' new' →
        services.sha256Hex token' = services.sha256Hex token → run.running j = .done (.ok ()) →
          i = j) ∧
    (∀ i refusal, run.running i = .done (.error refusal) →
      ∀ later take past tokenHash, run.history = later ++ take :: past → take.proc = i →
        takenLink take.call take.answer = some tokenHash →
          ∃ after back between, later = after ++ back :: between ∧ back.proc = i ∧
            back.call = .statement (.restoreResetToken tokenHash take.before.column.expiresAt) ∧
            (givenBack back.call back.answer ≠ none →
              (∀ m ∈ between,
                storedLink m.call m.answer = none ∧ givenBack m.call m.answer = none) →
              back.after.column = take.before.column)) ∧
    ∀ later store past newer, run.history = later ++ store :: past →
      storedLink store.call store.answer = some newer → ∀ older, Stored start past older →
        ∀ after take between, later = after ++ take :: between →
          takenLink take.call take.answer = some older.tokenHash →
            ∃ back ∈ between, givenBack back.call back.answer = some older ∧
              back.before.column.tokenHash = "" := by
  intro run
  obtain ⟨hscripted, hsettled⟩ : Along (LinkScripted services start) run.history ∧
      ∀ i result, run.running i = .done result →
        (requests i).2.Settled services result (linkPhase services i run.history) :=
    Typestate.exec_follows (fun i =>
      (requests i).2.follows_link services settings (requests i).1) schedule
  have hlinked := linked_of_scripted hstart hscripted
  refine ⟨fun i token new hi hdone => ?_, fun i refusal hdone later take past tokenHash hhistory
    hproc htaken => ?_, fun later store past newer hhistory hnewer older holder after take between
    hlater htaken => ?_⟩
  · have hi' := hsettled i _ hdone
    rw [hi] at hi'
    obtain ⟨expiresAt, hphase⟩ := hi'
    refine ⟨taken_of_took hscripted hphase, fun j token' new' hj hsame hdone' => ?_⟩
    have hj' := hsettled j _ hdone'
    rw [hj] at hj'
    obtain ⟨expiresAt', hphase'⟩ := hj'
    exact hlinked.alone i j _ _ _ hphase (hsame ▸ hphase')
  · have hfailed : ∀ tokenHash' expiresAt,
        linkPhase services i run.history ≠ .took tokenHash' expiresAt := by
      have hi := hsettled i _ hdone
      cases hrequest : (requests i).2 with
      | forgot => exact (hrequest ▸ hi :)
      | redeem token new => exact (hrequest ▸ hi :)
    subst hproc
    rw [hhistory] at hscripted hfailed
    exact returned_of_failed hstart hscripted htaken hfailed
  · rw [hhistory, hlater, List.append_assoc, List.cons_append] at hscripted
    have htake := hscripted.earlier
    exact (givenBack_between hstart htake.2 hnewer holder).resolve_left
      fun hne => hne (taken_moment htake.1 htaken)

/-- Digests that can be told apart, and no hashing. -/
def plainLinks : LinkServices where
  hash password _ := password
  compareHash _ _ := .misses
  sha256Hex token := "#" ++ token
  parseRfc3339 _ := none
  hexEncode drawn := String.ofList (List.replicate drawn 'a')
  distinct a b h := by
    have hlength := congrArg String.length h
    simpa [String.length_append] using hlength
  nonempty token h := by
    have hlength := congrArg String.length h
    simp [String.length_append] at hlength

/-- An account that has been sent a link. -/
def linkedAccount : VersionStore where
  auth :=
    { user := ⟨false, none, true, "email_token", 0, "#a", some 3600⟩
      roles := ["user"]
      passwordHash := some "7$old-horse-battery"
      sessions := [⟨1, "password", 9000⟩]
      tokens := []
      apiKeys := .empty
      held := []
      clock := 0
      nextRandom := 2 }
  cache _ := none
  millis := 0

theorem issued_linkedAccount : plainLinks.Issued linkedAccount := .inr ⟨1, by decide, rfl⟩

/-- A redemption of the link, a request for a newer one, its redemption, and the first link again. -/
def olderAndNewer : Fin 4 → ℕ × LinkRequest
  | 0 => (0, .redeem "a" "correct-horse-battery")
  | 1 => (0, .forgot)
  | 2 => (0, .redeem "aaa" "correct-horse-staple")
  | 3 => (0, .redeem "a" "correct-horse-stapler")

theorem neZero_four : NeZero 4 := ⟨by decide⟩

section Schedules

attribute [local instance] neZero_four

/-- The credential cannot be written once the older link has been taken; it is given back when the
newer one has been redeemed. -/
def olderGivenBack : List (Fin 4 × VersionChance) :=
  List.replicate 5 (0, ⟨1, false, true, 0, none⟩) ++
    List.replicate 4 (1, ⟨1, false, true, 0, none⟩) ++
    List.replicate 13 (2, ⟨1, false, true, 0, none⟩) ++
    [(0, ⟨1, true, true, 0, none⟩), (0, ⟨1, false, true, 0, none⟩)] ++
    List.replicate 13 (3, ⟨1, false, true, 0, none⟩)

/-- Neither the credential can be written nor the link given back. -/
def olderLost : List (Fin 4 × VersionChance) :=
  List.replicate 5 (0, ⟨1, false, true, 0, none⟩) ++ List.replicate 2 (0, ⟨1, true, true, 0, none⟩)

end Schedules

/-- The runs in which the older link is given back, and in which it is lost. -/
def linkedRun (schedule : List (Fin 4 × VersionChance)) :
    Pool (Fin 4) VersionStore (Outcome Unit LinkReply) (Except Refusal Unit) :=
  linkRun plainLinks ⟨false, 8, 1800, some 7⟩ linkedAccount olderAndNewer schedule

/-- A redemption that begins after a newer link is stored succeeds by the older one; and a redemption
that fails leaves its link spent, though no link was requested. -/
theorem not_newest_link_only :
    ((linkedRun olderGivenBack).running 3 = .done (.ok ()) ∧
      ∃ later store past, (linkedRun olderGivenBack).history = later ++ store :: past ∧
        storedLink store.call store.answer = some ⟨"#aaa", some 3600⟩ ∧
        linkedAccount.column = ⟨"#a", some 3600⟩ ∧ ∀ m ∈ store :: past, m.proc ≠ 3) ∧
    (linkedRun olderLost).running 0 = .done (.error (Families.internal "Failed to update password")) ∧
      (∃ take ∈ (linkedRun olderLost).history, takenLink take.call take.answer = some "#a") ∧
      (∀ m ∈ (linkedRun olderLost).history, storedLink m.call m.answer = none) ∧
      ((linkedRun olderLost).history.store linkedAccount).column = .clear := by
  refine ⟨⟨rfl, (linkedRun olderGivenBack).history.take 28,
    (linkedRun olderGivenBack).history.get ⟨28, by decide⟩,
    (linkedRun olderGivenBack).history.drop 29, rfl, rfl, rfl, by decide⟩, rfl, ?_, by decide, rfl⟩
  exact ⟨(linkedRun olderLost).history.get ⟨2, by decide⟩, List.get_mem _ _, rfl⟩

theorem links_redeemed_given_back :
    ∃ back ∈ ((linkedRun olderGivenBack).history.take 28).drop 9,
      givenBack back.call back.answer = some ⟨"#a", some 3600⟩ ∧
        back.before.column.tokenHash = "" := by
  have hsplit : (linkedRun olderGivenBack).history = (linkedRun olderGivenBack).history.take 28 ++
      (linkedRun olderGivenBack).history.get ⟨28, by decide⟩ ::
        (linkedRun olderGivenBack).history.drop 29 := rfl
  have hlater : (linkedRun olderGivenBack).history.take 28 =
      (linkedRun olderGivenBack).history.take 8 ++
        (linkedRun olderGivenBack).history.get ⟨8, by decide⟩ ::
          ((linkedRun olderGivenBack).history.take 28).drop 9 := rfl
  exact (links_redeemed plainLinks ⟨false, 8, 1800, some 7⟩ issued_linkedAccount olderAndNewer
    olderGivenBack).2.2 _ _ _ _ hsplit rfl ⟨"#a", some 3600⟩ (.inl ⟨rfl, by decide⟩) _ _ _ hlater rfl

end Auth
