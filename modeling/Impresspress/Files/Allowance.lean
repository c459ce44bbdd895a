import Impresspress.Files.ShareAccess
import Mathlib.Data.Finset.Card

/-!
# A share serves at most its allowance

The row of a share changes by the accesses that are admitted and by nothing else, and an access is
admitted by a write that checks the cap. Whoever serves has been admitted after it read the clock,
and the clock only grows.

## Main definitions

* `Files.admittedCount`: the accesses to a share that were admitted.
* `Files.Counted`: what the row and the requests say of a share.

## Main results

* `Files.counted_of_scripted`: the invariant, all along a run.
* `Files.admitted_of_spent`, `Files.card_le_admitted`: an admitted access for each that serves.
* `Files.not_admitted_of_revoked`: no access is admitted to a share that is gone.
-/

namespace Files

open Concurrent Relational

variable {ι : Type} [DecidableEq ι]

abbrev FileMoment (ι : Type) := Moment ι FileStore (Outcome Unit FileReply)

abbrev FileHistory (ι : Type) := History ι FileStore (Outcome Unit FileReply)

/-- The share that the call admitted an access to. -/
def admittedShare : (c : FileCall) → Outcome Unit FileReply c → Option ℕ
  | .incrementAccessCount id _, .ok true => some id
  | _, _ => none

/-- The share that the call found by a token. -/
def foundShare : (c : FileCall) → Outcome Unit FileReply c → Option (String × ShareRow)
  | .findByToken token, .ok (some share) => some (token, share)
  | _, _ => none

/-- The time that the call read. -/
def clockRead : (c : FileCall) → Outcome Unit FileReply c → Option ℕ
  | .utcNow, .ok now => some now
  | _, _ => none

/-- The call did not fail. -/
def succeeded : (c : FileCall) → Outcome Unit FileReply c → Prop
  | _, .ok _ => True
  | _, .error _ => False

/-- An access to the share was admitted. -/
def admits (id : ℕ) (m : FileMoment ι) : Bool := admittedShare m.call m.answer == some id

/-- The accesses to a share that were admitted. -/
def admittedCount (id : ℕ) (past : FileHistory ι) : ℕ := past.countP (admits id)

/-- One access more. -/
def ShareRecord.opened (record : ShareRecord) (accesses : ℕ) : ShareRecord :=
  { record with accessCount := record.accessCount + accesses }

/-! ## What a call does to the shares -/

section Calls

variable {chance : FileChance} {c : FileCall} {s : FileStore}

theorem admittedShare_error (c : FileCall) : admittedShare c (.error ()) = none := by
  cases c <;> rfl

theorem admittedShare_of_delete {answer : Outcome Unit FileReply c} {id : ℕ}
    (hc : c = .deleteShare id) : admittedShare c answer = none := by
  subst hc
  rfl

theorem shares_failed : (failed chance c s).shares = s.shares := by
  unfold failed
  split <;> rfl

/-- The calls that write a share. -/
def WritesShare : FileCall → Prop
  | .deleteShare _ => True
  | .incrementAccessCount .. => True
  | _ => False

theorem shares_answer (hc : ¬ WritesShare c) : (answer chance c s).2.shares = s.shares := by
  cases c with
  | deleteShare | incrementAccessCount => exact absurd trivial hc
  | insertGuarded row guards =>
    simp only [answer]
    split
    · rfl
    · split <;> rfl
  | updateGuarded id claimId update guards =>
    simp only [answer]
    split
    · rfl
    · split <;> rfl
  | arrive =>
    simp only [answer]
    split <;> rfl
  | _ => rfl

theorem admittedShare_answer (hc : ¬ WritesShare c) (reply : FileReply c) :
    admittedShare c (.ok reply) = none := by
  cases c with
  | incrementAccessCount => exact absurd trivial hc
  | _ => rfl

/-- An increment hits the row with the id if it hits any. -/
theorem incrementIf_eq {id : ℕ} {max : ℤ} {old : ShareRecord} (hold : old ∈ s.shares.rows) :
    old.incrementIf id max =
      if s.shares.rows.any (·.admits id max) = true ∧ old.id = id then old.opened 1 else old := by
  unfold ShareRecord.incrementIf
  by_cases hadmits : old.admits id max = true
  · have hid : old.id = id := by
      have := (Bool.and_eq_true_iff.mp hadmits).1
      exact beq_iff_eq.mp this
    rw [if_pos hadmits, if_pos ⟨List.any_eq_true.mpr ⟨old, hold, hadmits⟩, hid⟩]
    rfl
  · rw [if_neg hadmits, if_neg]
    rintro ⟨hany, hid⟩
    obtain ⟨row, hrow, hrowAdmits⟩ := List.any_eq_true.mp hany
    have hrowId : row.id = id := beq_iff_eq.mp (Bool.and_eq_true_iff.mp hrowAdmits).1
    rw [s.shares.eq_of_key_eq hrow hold (hrowId.trans hid.symm)] at hrowAdmits
    exact hadmits hrowAdmits

/-- Where a row of the shares comes from: it was there, with an access less if one was admitted. -/
theorem share_answer {row : ShareRecord} (h : row ∈ (answer chance c s).2.shares.rows) :
    ∃ old ∈ s.shares.rows, row =
      if admittedShare c (.ok (answer chance c s).1) = some old.id then old.opened 1 else old := by
  by_cases hc : WritesShare c
  · cases c with
    | deleteShare id => exact ⟨row, (Table.mem_erase.mp h).1, rfl⟩
    | incrementAccessCount id max =>
      obtain ⟨old, hold, rfl⟩ := List.mem_map.mp h
      refine ⟨old, hold, (incrementIf_eq hold).trans ?_⟩
      cases hany : s.shares.rows.any (·.admits id max) with
      | false =>
        simp only [answer, hany, admittedShare]
        rfl
      | true =>
        simp only [answer, hany, admittedShare, Option.some.injEq, true_and]
        exact if_congr eq_comm rfl rfl
    | _ => exact absurd hc id
  · rw [shares_answer hc] at h
    exact ⟨row, h, by rw [admittedShare_answer hc, if_neg nofun]⟩

theorem share_perform {row : ShareRecord} (h : row ∈ (perform chance c s).2.shares.rows) :
    ∃ old ∈ s.shares.rows, row =
      if admittedShare c (perform chance c s).1 = some old.id then old.opened 1 else old := by
  unfold perform at h ⊢
  dsimp only at h ⊢
  split at h
  · next hrefuses =>
    rw [shares_failed] at h
    rw [if_pos hrefuses]
    exact ⟨row, h, by rw [admittedShare_error, if_neg nofun]⟩
  · next hrefuses =>
    rw [if_neg hrefuses]
    exact share_answer h

/-- An access is admitted to a row that has room. -/
theorem admitted_perform {id : ℕ} (h : admittedShare c (perform chance c s).1 = some id) :
    ∃ max, c = .incrementAccessCount id max ∧
      ∃ row ∈ s.shares.rows, row.id = id ∧ (0 < max → row.accessCount < max) := by
  unfold perform at h
  dsimp only at h
  split at h
  · cases (admittedShare_error c).symm.trans h
  · cases c with
    | incrementAccessCount id' max =>
      cases hany : s.shares.rows.any (·.admits id' max) with
      | false =>
        simp only [answer, hany, admittedShare] at h
        cases h
      | true =>
        simp only [answer, hany, admittedShare, Option.some.injEq] at h
        subst h
        obtain ⟨row, hrow, hadmits⟩ := List.any_eq_true.mp hany
        obtain ⟨hid, hroom⟩ := Bool.and_eq_true_iff.mp hadmits
        refine ⟨max, rfl, row, hrow, beq_iff_eq.mp hid, fun hmax => ?_⟩
        rw [decide_eq_true hmax, Bool.not_true, Bool.false_or] at hroom
        exact of_decide_eq_true hroom
    | _ => cases h

/-- A share that is found is in a row with the token. -/
theorem found_perform {token : String} {share : ShareRow}
    (h : foundShare c (perform chance c s).1 = some (token, share)) :
    ∃ row ∈ s.shares.rows, row.token = token ∧ share = .fromRecord row := by
  unfold perform at h
  dsimp only at h
  split at h
  · cases c <;> cases h
  · cases c with
    | findByToken token' =>
      simp only [answer] at h
      cases hfound : s.shares.rows.find? fun record => record.token == token' with
      | none =>
        rw [hfound] at h
        cases h
      | some row =>
        rw [hfound] at h
        cases h
        exact ⟨row, List.mem_of_find?_eq_some hfound, by simpa using List.find?_some hfound, rfl⟩
    | _ => cases h

theorem deleted_perform {id : ℕ} (hc : c = .deleteShare id) (h : succeeded c (perform chance c s).1) :
    ∀ row ∈ (perform chance c s).2.shares.rows, row.id ≠ id := by
  subst hc
  unfold perform at h ⊢
  dsimp only at h ⊢
  split at h
  · exact absurd h nofun
  · next hruns =>
    rw [if_neg hruns]
    exact fun row hrow => (Table.mem_erase.mp hrow).2

theorem clock_perform : s.clock ≤ (perform chance c s).2.clock := by
  unfold perform
  dsimp only
  split
  · unfold failed
    split <;> exact Nat.le_add_right _ _
  · cases c with
    | insertGuarded row guards =>
      simp only [answer]
      split
      · exact Nat.le_add_right _ _
      · split <;> exact Nat.le_add_right _ _
    | updateGuarded id claimId update guards =>
      simp only [answer]
      split
      · exact Nat.le_add_right _ _
      · split <;> exact Nat.le_add_right _ _
    | arrive =>
      simp only [answer]
      split <;> exact Nat.le_add_right _ _
    | _ => exact Nat.le_add_right _ _

theorem clockRead_perform {now : ℕ} (h : clockRead c (perform chance c s).1 = some now) :
    c = .utcNow ∧ now = (perform chance c s).2.clock := by
  cases c with
  | utcNow =>
    cases h
    exact ⟨rfl, rfl⟩
  | _ => cases h

end Calls

/-! ## How a phase was come to -/

section Phases

variable {services : FileServices} {φ : AccessPhase} {c : FileCall}
  {answer : Outcome Unit FileReply c} {token : String} {share : ShareRow} {now : ℕ}

/-- The share that a request has read. -/
def AccessPhase.share? : AccessPhase → Option (String × ShareRow)
  | begun => none
  | read token share | timed token share _ | spent token share _ => some (token, share)

/-- The time that a request has read after its share. -/
def AccessPhase.now? : AccessPhase → Option ℕ
  | begun | read .. => none
  | timed _ _ now | spent _ _ now => some now

theorem share_after (h : (φ.after c answer).share? = some (token, share)) :
    φ.share? = some (token, share) ∨ foundShare c answer = some (token, share) := by
  unfold AccessPhase.after at h
  split at h
  · exact .inr h
  · exact .inl h
  · exact .inl h
  · exact .inl h

theorem now_after (h : (φ.after c answer).now? = some now) :
    φ.now? = some now ∨ clockRead c answer = some now := by
  unfold AccessPhase.after at h
  split at h
  · cases h
  · exact .inr h
  · exact .inl h
  · exact .inl h

theorem not_utcNow_of_now (hpermits : φ.permits services c) (h : φ.now? = some now) :
    c ≠ .utcNow := by
  rintro rfl
  rcases hpermits with rfl | ⟨token, share, rfl⟩ <;> cases h

theorem spent_after (hpermits : φ.permits services c)
    (h : φ.after c answer = .spent token share now) :
    φ = .spent token share now ∨
      φ = .timed token share now ∧ admittedShare c answer = some share.id := by
  unfold AccessPhase.after at h
  split at h
  · cases h
  · cases h
  · cases h
    obtain ⟨_, _, _, hφ, hid, -⟩ := hpermits
    cases hφ
    exact .inr ⟨rfl, congrArg some hid⟩
  · exact .inl h

theorem after_spent : (AccessPhase.spent token share now).after c answer =
    .spent token share now := rfl

/-- An access is admitted to the share that was read, with its cap. -/
theorem timed_of_admitted {id : ℕ} (hpermits : φ.permits services c)
    (h : admittedShare c answer = some id) : ∃ token share now, φ = .timed token share now ∧
      share.id = id ∧ φ.after c answer = .spent token share now ∧
      ∀ max, c = .incrementAccessCount id max → max = share.maxAccessCount.getD 0 := by
  unfold admittedShare at h
  split at h
  · cases h
    obtain ⟨token, share, now, rfl, rfl, hmax, -⟩ := hpermits
    exact ⟨token, share, now, rfl, rfl, rfl, fun max hc => by cases hc; exact hmax⟩
  · cases h

end Phases

/-! ## The invariant -/

section Run

variable {services : FileServices} {start : FileStore} {past : FileHistory ι} {m : FileMoment ι}
  {i : ι} {record : ShareRecord} {token : String} {share : ShareRow} {now : ℕ}

/-- The phase that request `i` is in. -/
def accessPhase (services : FileServices) (i : ι) (past : FileHistory ι) : AccessPhase :=
  (past.own i).phase (accessStates services) .begun

/-- A moment of a run of the requests. -/
abbrev AccessScripted (services : FileServices) (start : FileStore) :
    FileHistory ι → FileMoment ι → Prop :=
  Scripted perform start ((accessStates services).issues fun _ => .begun)

theorem accessPhase_cons_of_ne (h : m.proc ≠ i) :
    accessPhase services i (m :: past) = accessPhase services i past := by
  rw [accessPhase, History.own_cons_of_ne h, accessPhase]

theorem accessPhase_cons_self (past : FileHistory ι) (m : FileMoment ι) :
    accessPhase services m.proc (m :: past) =
      (accessPhase services m.proc past).after m.call m.answer := by
  rw [accessPhase, History.own_cons_self rfl]
  rfl

theorem accessPermits (hm : AccessScripted services start past m) :
    (accessPhase services m.proc past).permits services m.call :=
  hm.issues

theorem file_moment (hm : AccessScripted services start past m) : ∃ chance,
    m.answer = (perform chance m.call (past.store start)).1 ∧
      m.after = (perform chance m.call (past.store start)).2 := by
  obtain ⟨chance, hanswer, hafter⟩ := hm.happened
  rw [hm.before] at hanswer hafter
  exact ⟨chance, hanswer, hafter⟩

theorem share_moment (hm : AccessScripted services start past m) {row : ShareRecord}
    (hrow : row ∈ m.after.shares.rows) : ∃ old ∈ (past.store start).shares.rows, row =
      if admittedShare m.call m.answer = some old.id then old.opened 1 else old := by
  obtain ⟨chance, hanswer, hafter⟩ := file_moment hm
  rw [hafter] at hrow
  rw [hanswer]
  exact share_perform hrow

/-- What the row and the requests say of a share: its row counts the accesses that were admitted,
they are within the cap, and what requests have read of it is what it was created with. -/
structure Counted (services : FileServices) (start : FileStore) (record : ShareRecord)
    (past : FileHistory ι) : Prop where
  token : ∀ row ∈ (past.store start).shares.rows, row.token = record.token → row.id = record.id
  row : ∀ row ∈ (past.store start).shares.rows, row.id = record.id →
    row = record.opened (admittedCount record.id past)
  cap : ∀ max, record.maxAccessCount = some max → 0 < max → record.accessCount ≤ max →
    record.accessCount + admittedCount record.id past ≤ max
  read : ∀ i token share, (accessPhase services i past).share? = some (token, share) →
    (token = record.token → share.id = record.id) ∧
      (share.id = record.id → share.expiresAt = (ShareRow.fromRecord record).expiresAt ∧
        share.maxAccessCount = (ShareRow.fromRecord record).maxAccessCount)

omit [DecidableEq ι] in
theorem admittedCount_cons (id : ℕ) (m : FileMoment ι) (past : FileHistory ι) :
    admittedCount id (m :: past) =
      admittedCount id past + if admittedShare m.call m.answer = some id then 1 else 0 := by
  simp only [admittedCount, List.countP_cons, admits, beq_iff_eq]

/-- What a request has read was in a row. -/
theorem share_cons (hm : AccessScripted services start past m)
    (h : (accessPhase services i (m :: past)).share? = some (token, share)) :
    (accessPhase services i past).share? = some (token, share) ∨
      ∃ row ∈ (past.store start).shares.rows, row.token = token ∧ share = .fromRecord row := by
  by_cases hi : m.proc = i
  · subst hi
    rw [accessPhase_cons_self] at h
    refine (share_after h).imp_right fun hfound => ?_
    obtain ⟨chance, hanswer, -⟩ := file_moment hm
    rw [hanswer] at hfound
    exact found_perform hfound
  · rw [accessPhase_cons_of_ne hi] at h
    exact .inl h

/-- An access that is admitted to the share leaves its count within the cap. -/
theorem Counted.cap_of_admitted (h : Counted services start record past)
    (hm : AccessScripted services start past m)
    (hadmitted : admittedShare m.call m.answer = some record.id) {max : ℤ}
    (hmax : record.maxAccessCount = some max) (hpos : 0 < max) :
    record.accessCount + admittedCount record.id past < max := by
  obtain ⟨token, share, now, hphase, hid, -, hcap⟩ := timed_of_admitted (accessPermits hm) hadmitted
  obtain ⟨chance, hanswer, -⟩ := file_moment hm
  rw [hanswer] at hadmitted
  obtain ⟨max', hcall, row, hrow, hrowId, hroom⟩ := admitted_perform hadmitted
  have hshare : share.maxAccessCount = some max := by
    rw [((h.read m.proc token share (by rw [hphase]; rfl)).2 hid).2, ShareRow.fromRecord, hmax]
    simp [hpos]
  have hmax' : max' = max := by rw [hcap max' hcall, hshare, Option.getD_some]
  rw [hmax'] at hroom
  have := hroom hpos
  rw [h.row row hrow hrowId] at this
  exact this

/-- A call keeps the account of the share. -/
theorem Counted.step (h : Counted services start record past)
    (hm : AccessScripted services start past m) : Counted services start record (m :: past) where
  token row hrow htoken := by
    obtain ⟨old, hold, rfl⟩ := share_moment hm hrow
    by_cases hadmitted : admittedShare m.call m.answer = some old.id
    · rw [if_pos hadmitted] at htoken ⊢
      exact h.token old hold htoken
    · rw [if_neg hadmitted] at htoken ⊢
      exact h.token old hold htoken
  row row hrow hid := by
    obtain ⟨old, hold, rfl⟩ := share_moment hm hrow
    have holdId : old.id = record.id := by
      split at hid <;> exact hid
    rw [holdId, h.row old hold holdId, admittedCount_cons]
    split
    · simp only [ShareRecord.opened]
      congr 1
      push_cast
      omega
    · rfl
  cap max hmax hpos hroom := by
    rw [admittedCount_cons]
    split
    · next hadmitted =>
      have := h.cap_of_admitted hm hadmitted hmax hpos
      push_cast
      omega
    · exact h.cap max hmax hpos hroom
  read i token share hi := by
    rcases share_cons hm hi with hknown | ⟨row, hrow, rfl, rfl⟩
    · exact h.read i token share hknown
    · refine ⟨fun htoken => h.token row hrow htoken, fun hid => ?_⟩
      rw [h.row row hrow hid]
      exact ⟨rfl, rfl⟩

theorem counted_nil (hrecord : record ∈ start.shares.rows) :
    Counted services start record ([] : FileHistory ι) where
  token row hrow htoken := by
    by_contra hne
    have hclash := start.shares.clash_eq_false hrow hrecord hne
    exact absurd htoken (by simpa [shareSchema] using hclash)
  row row hrow hid := by
    rw [start.shares.eq_of_key_eq hrow hrecord hid]
    simp [ShareRecord.opened, admittedCount]
  cap max _ _ hroom := by simpa [admittedCount] using hroom
  read := nofun

/-- The invariant holds all along a run. -/
theorem counted_of_scripted (hrecord : record ∈ start.shares.rows)
    (h : Along (AccessScripted services start) past) : Counted services start record past := by
  induction past with
  | nil => exact counted_nil hrecord
  | cons m past ih => exact (ih h.2).step h.1

/-! ## Who serves, and when -/

/-- A request that has spent an access stays so, and was admitted. -/
theorem spent_of_admitted (h : Along (AccessScripted services start) past) {id : ℕ}
    (hadmitted : ∃ m ∈ past, m.proc = i ∧ admittedShare m.call m.answer = some id) :
    (accessPhase services i past).Spent := by
  induction past with
  | nil =>
    obtain ⟨m, hm, -⟩ := hadmitted
    cases hm
  | cons m past ih =>
    obtain ⟨m', hm', hproc, hid⟩ := hadmitted
    rcases List.mem_cons.mp hm' with rfl | hm'
    · subst hproc
      obtain ⟨token, share, now, -, -, hafter, -⟩ := timed_of_admitted (accessPermits h.1) hid
      exact ⟨token, share, now, (accessPhase_cons_self past m').trans hafter⟩
    · obtain ⟨token, share, now, hspent⟩ := ih h.2 ⟨m', hm', hproc, hid⟩
      by_cases hi : m.proc = i
      · subst hi
        exact ⟨token, share, now, by rw [accessPhase_cons_self, hspent, after_spent]⟩
      · exact ⟨token, share, now, by rw [accessPhase_cons_of_ne hi, hspent]⟩

theorem spent_cons (hm : AccessScripted services start past m)
    (h : accessPhase services i (m :: past) = .spent token share now) :
    accessPhase services i past = .spent token share now ∨
      m.proc = i ∧ admittedShare m.call m.answer = some share.id := by
  by_cases hi : m.proc = i
  · subst hi
    rw [accessPhase_cons_self] at h
    exact (spent_after (accessPermits hm) h).imp_right fun hspent => ⟨rfl, hspent.2⟩
  · rw [accessPhase_cons_of_ne hi] at h
    exact .inl h

theorem admitted_of_spent (h : Along (AccessScripted services start) past)
    (hspent : accessPhase services i past = .spent token share now) :
    ∃ m ∈ past, m.proc = i ∧ admittedShare m.call m.answer = some share.id := by
  induction past with
  | nil => cases hspent
  | cons m past ih =>
    rcases spent_cons h.1 hspent with hspent | ⟨hproc, hadmitted⟩
    · obtain ⟨m', hm', hadmitted⟩ := ih h.2 hspent
      exact ⟨m', List.mem_cons_of_mem _ hm', hadmitted⟩
    · exact ⟨m, List.mem_cons_self, hproc, hadmitted⟩

/-- There is an admitted access for each request that has spent one. -/
theorem card_le_admitted (h : Along (AccessScripted services start) past) {id : ℕ}
    (served : Finset ι)
    (hserved : ∀ i ∈ served, ∃ token share now,
      accessPhase services i past = .spent token share now ∧ share.id = id) :
    served.card ≤ admittedCount id past := by
  induction past generalizing served with
  | nil =>
    rw [Finset.eq_empty_of_forall_notMem (s := served) fun i hi => by
      obtain ⟨_, _, _, hspent, -⟩ := hserved i hi
      cases hspent]
    exact Nat.zero_le _
  | cons m past ih =>
    -- all but the one that was admitted just now had spent their access before
    have hothers : (served.erase m.proc).card ≤ admittedCount id past := by
      refine ih h.2 _ fun i hi => ?_
      obtain ⟨hne, hi⟩ := Finset.mem_erase.mp hi
      obtain ⟨token, share, now, hspent, hid⟩ := hserved i hi
      rw [accessPhase_cons_of_ne hne.symm] at hspent
      exact ⟨token, share, now, hspent, hid⟩
    rw [admittedCount_cons]
    by_cases hmem : m.proc ∈ served
    · obtain ⟨token, share, now, hspent, hid⟩ := hserved m.proc hmem
      rcases spent_cons h.1 hspent with hold | ⟨-, hadmitted⟩
      · refine (ih h.2 served fun i hi => ?_).trans (Nat.le_add_right _ _)
        by_cases hi' : m.proc = i
        · exact ⟨token, share, now, hi' ▸ hold, hid⟩
        · obtain ⟨token', share', now', hspent', hid'⟩ := hserved i hi
          rw [accessPhase_cons_of_ne hi'] at hspent'
          exact ⟨token', share', now', hspent', hid'⟩
      · rw [if_pos (hid ▸ hadmitted), ← Finset.card_erase_add_one hmem]
        exact Nat.add_le_add_right hothers 1
    · rw [Finset.erase_eq_of_notMem hmem] at hothers
      exact hothers.trans (Nat.le_add_right _ _)

/-- No access is admitted to a share that is gone. -/
theorem not_admitted_of_revoked {later earlier : FileHistory ι} {id : ℕ}
    (h : Along (AccessScripted services start) (later ++ earlier))
    (hgone : ∀ row ∈ (earlier.store start).shares.rows, row.id ≠ id) :
    (∀ row ∈ ((later ++ earlier).store start).shares.rows, row.id ≠ id) ∧
      ∀ m ∈ later, admittedShare m.call m.answer ≠ some id := by
  induction later with
  | nil => exact ⟨hgone, List.forall_mem_nil _⟩
  | cons m later ih =>
    obtain ⟨hrows, hlater⟩ := ih h.2
    refine ⟨fun row hrow => ?_, fun m' hm' hadmitted => ?_⟩
    · obtain ⟨old, hold, rfl⟩ := share_moment h.1 hrow
      have := hrows old hold
      split <;> exact this
    · rcases List.mem_cons.mp hm' with rfl | hm'
      · obtain ⟨chance, hanswer, -⟩ := file_moment h.1
        rw [hanswer] at hadmitted
        obtain ⟨-, -, row, hrow, hid, -⟩ := admitted_perform hadmitted
        exact hrows row hrow hid
      · exact hlater m' hm' hadmitted

theorem clock_le_after (hm : AccessScripted services start past m) :
    (past.store start).clock ≤ m.after.clock := by
  obtain ⟨chance, -, hafter⟩ := file_moment hm
  rw [hafter]
  exact clock_perform

/-- The clock only grows. -/
theorem clock_le (h : Along (AccessScripted services start) past) :
    start.clock ≤ (past.store start).clock ∧
      ∀ m ∈ past, m.after.clock ≤ (past.store start).clock := by
  induction past with
  | nil => exact ⟨Nat.le_refl _, List.forall_mem_nil _⟩
  | cons m past ih =>
    obtain ⟨hstart, hpast⟩ := ih h.2
    have hle := clock_le_after h.1
    refine ⟨hstart.trans hle, fun m' hm' => ?_⟩
    rcases List.mem_cons.mp hm' with rfl | hm'
    · exact Nat.le_refl _
    · exact (hpast m' hm').trans hle

/-- A request that knows the time has read the clock last at that time. -/
theorem clock_of_now (h : Along (AccessScripted services start) past)
    (hnow : (accessPhase services i past).now? = some now) :
    ∃ later clock earlier, past = later ++ clock :: earlier ∧ clock.proc = i ∧
      clock.call = .utcNow ∧ clock.after.clock = now ∧
      ∀ m ∈ later, m.proc = i → m.call ≠ .utcNow := by
  induction past with
  | nil => cases hnow
  | cons m past ih =>
    by_cases hi : m.proc = i
    · subst hi
      rw [accessPhase_cons_self] at hnow
      rcases now_after hnow with hknown | hread
      · obtain ⟨later, clock, earlier, rfl, hproc, hcall, hclock, hlater⟩ := ih h.2 hknown
        refine ⟨m :: later, clock, earlier, rfl, hproc, hcall, hclock, fun m' hm' hproc' => ?_⟩
        rcases List.mem_cons.mp hm' with rfl | hm'
        · exact not_utcNow_of_now (accessPermits h.1) hknown
        · exact hlater m' hm' hproc'
      · obtain ⟨chance, hanswer, hafter⟩ := file_moment h.1
        rw [hanswer] at hread
        obtain ⟨hcall, rfl⟩ := clockRead_perform hread
        exact ⟨[], m, past, rfl, rfl, hcall, by rw [hafter], List.forall_mem_nil _⟩
    · rw [accessPhase_cons_of_ne hi] at hnow
      obtain ⟨later, clock, earlier, rfl, hproc, hcall, hclock, hlater⟩ := ih h.2 hnow
      refine ⟨m :: later, clock, earlier, rfl, hproc, hcall, hclock, fun m' hm' hproc' => ?_⟩
      rcases List.mem_cons.mp hm' with rfl | hm'
      · exact absurd hproc' hi
      · exact hlater m' hm' hproc'

end Run

/-! ## The allowance -/

/-- Request `i` opened the share by its token and was served the object. -/
def Serves (requests : ι → FileRequest)
    (run : Pool ι FileStore (Outcome Unit FileReply) Response) (token : String) (i : ι) : Prop :=
  requests i = .access token ∧ ∃ content, run.running i = .done (.streamed content)

/-- For a share with any number of accesses, revocations, uploads and deletes, along any schedule:

* the requests that are served are at most the accesses that were admitted, and at most the cap;
* the row counts the admitted accesses, within the cap;
* a share is served only if it has an expiry that can be read, and only to a request that read the
  clock before it, when no clock had been past it;
* an access that is over and was not served has changed no row;
* once the share is revoked, no access is admitted, and whoever is served was admitted before. -/
theorem share_serves_allowance (services : FileServices) {start : FileStore} {record : ShareRecord}
    (hrecord : record ∈ start.shares.rows) (requests : ι → FileRequest)
    (schedule : List (ι × FileChance)) :
    let run := fileRun services start requests schedule
    (∀ served : Finset ι, (∀ i ∈ served, Serves requests run record.token i) →
      served.card ≤ admittedCount record.id run.history ∧
        ∀ max, record.maxAccessCount = some max → 0 < max → 0 ≤ record.accessCount →
          record.accessCount ≤ max → (served.card : ℤ) ≤ max) ∧
    (∀ row ∈ (run.history.store start).shares.rows, row.id = record.id →
      row.accessCount = record.accessCount + admittedCount record.id run.history ∧
        ∀ max, record.maxAccessCount = some max → 0 < max → record.accessCount ≤ max →
          row.accessCount ≤ max) ∧
    (∀ i, Serves requests run record.token i → ∃ expires,
      (ShareRow.fromRecord record).expiresAt.bind services.parseRfc3339 = some expires ∧
        ∃ later clock past, run.history = later ++ clock :: past ∧ clock.proc = i ∧
          clock.call = .utcNow ∧ (∀ m ∈ clock :: past, m.after.clock ≤ expires) ∧
          ∀ m ∈ later, m.proc = i → m.call ≠ .utcNow) ∧
    (∀ i token response, requests i = .access token → run.running i = .done response →
      (∀ content, response ≠ .streamed content) → ∀ m ∈ run.history, m.proc = i →
        ∀ row ∈ m.after.shares.rows, row ∈ m.before.shares.rows) ∧
    ∀ later revoke past, run.history = later ++ revoke :: past →
      revoke.call = .deleteShare record.id → succeeded revoke.call revoke.answer →
        (∀ m ∈ later, admittedShare m.call m.answer ≠ some record.id) ∧
          ∀ i, Serves requests run record.token i →
            ∃ m ∈ past, m.proc = i ∧ admittedShare m.call m.answer = some record.id := by
  intro run
  obtain ⟨hscripted, haccounted⟩ : Along (AccessScripted services start) run.history ∧
      ∀ i response, run.running i = .done response →
        (requests i).Accounted services response (accessPhase services i run.history) :=
    Typestate.exec_follows (fun i => (requests i).follows_access services) schedule
  have hcounted : Counted services start record run.history :=
    counted_of_scripted hrecord hscripted
  -- whoever is served has spent an access of this share while it was live
  have hserved : ∀ i, Serves requests run record.token i → ∃ share now,
      accessPhase services i run.history = .spent record.token share now ∧ share.id = record.id ∧
        share.Live services now := by
    rintro i ⟨hi, content, hdone⟩
    rcases (haccounted i _ hdone).1 record.token hi with ⟨-, share, now, hphase, hlive⟩ | ⟨hnone, -⟩
    · exact ⟨share, now, hphase, (hcounted.read i _ share (by rw [hphase]; rfl)).1 rfl, hlive⟩
    · exact absurd rfl (hnone content)
  refine ⟨fun served hall => ?_, fun row hrow hid => ?_, fun i hi => ?_,
    fun i token response hi hdone hnone m hm hproc row hrow => ?_,
    fun later revoke past hhistory hcall hok => ?_⟩
  · have hcard : served.card ≤ admittedCount record.id run.history :=
      card_le_admitted hscripted served fun i hi => by
        obtain ⟨share, now, hphase, hid, -⟩ := hserved i (hall i hi)
        exact ⟨record.token, share, now, hphase, hid⟩
    refine ⟨hcard, fun max hmax hpos hcount hroom => ?_⟩
    have hcap := hcounted.cap max hmax hpos hroom
    omega
  · rw [hcounted.row row hrow hid]
    exact ⟨rfl, fun max hmax hpos hroom => hcounted.cap max hmax hpos hroom⟩
  · obtain ⟨share, now, hphase, hid, expires, hexpires, hlive⟩ := hserved i hi
    obtain ⟨later, clock, past, hhistory, hproc, hcall, rfl, hlater⟩ :=
      clock_of_now hscripted (show AccessPhase.now? _ = some now by rw [hphase]; rfl)
    rw [((hcounted.read i _ share (by rw [hphase]; rfl)).2 hid).1] at hexpires
    refine ⟨expires, hexpires, later, clock, past, hhistory, hproc, hcall, fun m hm => ?_, hlater⟩
    rw [hhistory] at hscripted
    exact ((clock_le hscripted.earlier).2 m hm).trans hlive
  · rcases (haccounted i response hdone).1 token hi with ⟨⟨content, hserves⟩, -⟩ | ⟨-, hspent⟩
    · exact absurd hserves (hnone content)
    have hadmitted : ∀ id, admittedShare m.call m.answer ≠ some id := fun id hadmitted =>
      hspent (spent_of_admitted hscripted ⟨m, hm, hproc, hadmitted⟩)
    obtain ⟨later, past, hhistory⟩ := List.append_of_mem hm
    rw [hhistory] at hscripted
    have hm' := hscripted.earlier.1
    obtain ⟨old, hold, rfl⟩ := share_moment hm' hrow
    rw [if_neg (hadmitted _), hm'.before]
    exact hold
  · rw [hhistory] at hscripted
    have hrevoke := hscripted.earlier
    have hgone : ∀ row ∈ revoke.after.shares.rows, row.id ≠ record.id := by
      obtain ⟨chance, hanswer, hafter⟩ := file_moment hrevoke.1
      rw [hafter]
      rw [hanswer] at hok
      exact deleted_perform hcall hok
    have hlater := (not_admitted_of_revoked hscripted hgone).2
    refine ⟨hlater, fun i hi => ?_⟩
    obtain ⟨share, now, hphase, hid, -⟩ := hserved i hi
    rw [hhistory] at hphase
    obtain ⟨m, hm, hproc, hadmitted⟩ := admitted_of_spent hscripted hphase
    rw [hid] at hadmitted
    rcases List.mem_append.mp hm with hm | hm
    · exact absurd hadmitted (hlater m hm)
    rcases List.mem_cons.mp hm with rfl | hm
    · cases (admittedShare_of_delete hcall).symm.trans hadmitted
    · exact ⟨m, hm, hproc, hadmitted⟩

/-- A picture, and a link to it that may be opened once. -/
def sharedOnce : FileStore where
  objects := ⟨[⟨1, "photos", "a.png", 2, "image/png", .complete, "alice", 0, none, none⟩], by decide⟩
  blobs bucket key := if bucket = "photos" ∧ key = "a.png" then some [1, 2] else none
  late := []
  shares := ⟨[⟨2, "9f86", "photos", "a.png", "alice", some "1970-01-01T01:00:00Z", 0, some 1⟩],
    by decide⟩
  quota _ := ⟨100, 10, 0⟩
  clock := 0
  nextUuid := 3

/-- Two accesses, both of which resolve the object before either is admitted, and a revocation. -/
def raceForOne : Fin 3 → FileRequest
  | 0 => .access "9f86"
  | 1 => .access "9f86"
  | 2 => .deleteShare "alice" false 2

theorem neZero_three : NeZero 3 := ⟨by decide⟩

section Schedule

attribute [local instance] neZero_three

def raceSchedule : List (Fin 3 × FileChance) :=
  List.replicate 5 (0, ⟨1, false, .lands, 0, false⟩) ++
    List.replicate 5 (1, ⟨1, false, .lands, 0, false⟩) ++
    [(0, ⟨1, false, .lands, 0, false⟩), (1, ⟨1, false, .lands, 0, false⟩),
      (0, ⟨1, false, .lands, 0, false⟩)] ++
    List.replicate 2 (2, ⟨1, false, .lands, 0, false⟩)

end Schedule

/-- The run of the race. -/
def raceRun : Pool (Fin 3) FileStore (Outcome Unit FileReply) Response :=
  fileRun ⟨toString, fun _ => some 3600⟩ sharedOnce raceForOne raceSchedule

theorem share_serves_allowance_once :
    raceRun.running 0 = .done (.streamed [1, 2]) ∧ raceRun.running 1 = .done shareLimitReached ∧
      ({0} : Finset (Fin 3)).card ≤ admittedCount 2 raceRun.history ∧
      ((({0} : Finset (Fin 3)).card : ℤ) ≤ 1) := by
  have hserves : ∀ i ∈ ({0} : Finset (Fin 3)), Serves raceForOne raceRun "9f86" i := by
    intro i hi
    rw [Finset.mem_singleton.mp hi]
    exact ⟨rfl, [1, 2], rfl⟩
  have hrecord : (⟨2, "9f86", "photos", "a.png", "alice", some "1970-01-01T01:00:00Z", 0, some 1⟩ :
      ShareRecord) ∈ sharedOnce.shares.rows := List.mem_singleton.mpr rfl
  obtain ⟨hcard, hcap⟩ := (share_serves_allowance ⟨toString, fun _ => some 3600⟩ hrecord raceForOne
    raceSchedule).1 {0} hserves
  exact ⟨rfl, rfl, hcard, hcap 1 rfl (by decide) (by decide) (by decide)⟩

end Files
