import Mathlib.Data.Fintype.Basic
import Impresspress.Products.Offers.Fence

/-!
# Published offers and stalled writers

A publication compares the revision it has read, so no draft update can begin between the
review and the publication, and none can begin afterwards. What the fence does not stop is an
update that began earlier and is still writing child rows: a second update may pass it, settle
the fence, and be published. An offer is immutable from its publication on in every run in
which no such writer is left behind.

## Main definitions

* `Products.Offers.Immutable`: a published offer is what was reviewed, and stays so.
* `Products.Offers.Unstalled`: no writer is left behind by a publication.

## Main results

* `Products.Offers.not_opens_of_publishes`: the fence is not opened after a review.
* `Products.Offers.published_immutable`: without stalled writers published offers are immutable.
-/

namespace Products

namespace Offers

open Concurrent

instance : Fintype ChildTable :=
  ⟨{.offerVariables, .offerComponents}, fun t => by cases t <;> simp⟩

variable {R : OfferRules} {ι : Type}

/-- The call lists the child rows of the table. -/
def OfferCall.lists (t : ChildTable) : OfferCall R → Bool
  | list t' => t' == t
  | _ => false

/-- What a publication `w` leaves behind: the children are those that its own call has listed and
found valid under the row it read, and every later store has the same children. -/
structure Pinned [DecidableEq ι] (later : OfferHistory R ι) (w : OfferMoment R ι)
    (earlier : OfferHistory R ι) : Prop where
  reviewed : ∃ readRow ∈ History.own w.proc earlier, ∃ readVariables ∈ History.own w.proc earlier,
    ∃ readComponents ∈ History.own w.proc earlier, ∃ row offer, rowRead readRow = some row ∧
      listed .offerVariables readVariables = some (w.after.children .offerVariables) ∧
      listed .offerComponents readComponents = some (w.after.children .offerComponents) ∧
      R.hydrate row.terms w.after.children = .ok offer ∧ R.validateOffer offer = .ok ()
  fixed : ∀ m ∈ later, m.after.children = w.after.children

/-- From its publication on an offer is what was reviewed. -/
def Immutable [DecidableEq ι] (run : OfferHistory R ι) : Prop :=
  ∀ later w earlier, run = later ++ w :: earlier → publishes w → Pinned later w earlier

/-- After a call has listed a child table at `l` and gone on to publish, the table is not written
by a call that had opened the fence before `l`. -/
def LeavesNone [DecidableEq ι] (later : OfferHistory R ι) (l : OfferMoment R ι)
    (earlier : OfferHistory R ι) : Prop :=
  ∀ t, l.call.lists t → (∃ w ∈ later, w.proc = l.proc ∧ publishes w) →
    ∀ m ∈ later, m.call.writes t → ∀ o ∈ earlier, o.proc = m.proc → opens o = false

instance [DecidableEq ι] (later : OfferHistory R ι) (l : OfferMoment R ι)
    (earlier : OfferHistory R ι) : Decidable (LeavesNone later l earlier) :=
  inferInstanceAs (Decidable (∀ t, l.call.lists t →
    (∃ w ∈ later, w.proc = l.proc ∧ publishes w) →
      ∀ m ∈ later, m.call.writes t → ∀ o ∈ earlier, o.proc = m.proc → opens o = false))

/-- No writer is left behind by a publication. -/
def Unstalled [DecidableEq ι] (run : OfferHistory R ι) : Prop :=
  ∀ k < run.length, ∀ l ∈ run[k]?, LeavesNone (run.take k) l (run.drop (k + 1))

instance [DecidableEq ι] (run : OfferHistory R ι) : Decidable (Unstalled run) :=
  inferInstanceAs (Decidable (∀ k < run.length, ∀ l ∈ run[k]?,
    LeavesNone (run.take k) l (run.drop (k + 1))))

theorem Unstalled.split [DecidableEq ι] {later earlier : OfferHistory R ι} {l : OfferMoment R ι}
    (h : Unstalled (later ++ l :: earlier)) : LeavesNone later l earlier := by
  have hk := h later.length (by simp) l (by simp)
  have hdrop : (later ++ l :: earlier).drop (later.length + 1) = earlier := by
    rw [List.drop_append, List.drop_eq_nil_of_le (Nat.le_succ _)]
    simp
  rwa [List.take_left' rfl, hdrop] at hk

/-- Everything a call can do to the offer row. -/
inductive RowChange (m : OfferMoment R ι) : Prop
  | unchanged (after : m.after.offer = m.before.offer) (opens : opens m = false)
      (publishes : publishes m = false)
  | created (row : OfferRow R) (call : m.call = .create row) (before : m.before.offer = none)
      (after : m.after.offer = some row) (opens : opens m)
  | deleted (call : m.call = .delete) (after : m.after.offer = none)
  | updated (status : OfferStatus) (revision : Option ℕ) (write : OfferWrite R) (row : OfferRow R)
      (call : m.call = .update status revision write) (before : m.before.offer = some row)
      (matched : rowMatches status revision row) (after : m.after.offer = some (write.apply row))
      (answer : publishes m = (write matches .publish))

theorem happened_cases {m : OfferMoment R ι} (h : m.Happened perform) :
    (∃ e, m.answer = .error e ∧ m.after = m.before) ∨
      (m.answer = (answer m.before m.call).1 ∧ m.after = (answer m.before m.call).2) := by
  obtain ⟨failure, hanswer, hafter⟩ := h
  cases failure with
  | none => exact .inr ⟨hanswer, hafter⟩
  | some error => exact .inl ⟨error, hanswer, hafter⟩

theorem rowChange {m : OfferMoment R ι} (h : m.Happened perform) : RowChange m := by
  obtain ⟨i, s, c, ans, after⟩ := m
  rcases happened_cases h with ⟨e, hanswer, hafter⟩ | ⟨hanswer, hafter⟩
  · simp only at hanswer hafter
    subst hanswer hafter
    exact .unchanged rfl (by cases c <;> simp [opens, opensOf])
      (by cases c <;> simp [publishes, publishesOf])
  · simp only at hanswer hafter
    subst hanswer hafter
    cases c with
    | getProduct | newId | list | createChild | deleteChild => exact .unchanged rfl rfl rfl
    | get => cases hrow : s.offer <;> exact .unchanged (by simp [answer, hrow]) rfl rfl
    | updateChild t id key columns =>
      by_cases hid : (s.children t).any fun row => row.id == id
      · exact .unchanged (by simp [answer, hid, OfferStore.setChildren]) rfl rfl
      · exact .unchanged (by simp [answer, hid]) rfl rfl
    | delete => exact .deleted rfl rfl
    | create row =>
      cases hrow : s.offer with
      | none =>
        exact .created row rfl hrow (by simp [answer, hrow])
          (by simp [opens, opensOf, answer, hrow])
      | some existing =>
        exact .unchanged (by simp [answer, hrow]) (by simp [opens, opensOf, answer, hrow]) rfl
    | update status revision write =>
      cases hrow : s.offer with
      | none =>
        exact .unchanged (by simp [answer, hrow])
          (by cases write <;> simp [opens, opensOf, answer, hrow])
          (by cases write <;> simp [publishes, publishesOf, answer, hrow])
      | some row =>
        by_cases hmatch : rowMatches status revision row = true
        · exact .updated status revision write row rfl hrow hmatch (by simp [answer, hrow, hmatch])
            (by cases write <;> simp [publishes, publishesOf, answer, hrow, hmatch])
        · exact .unchanged (by simp [answer, hrow, hmatch])
            (by cases write <;> simp [opens, opensOf, answer, hrow, hmatch])
            (by cases write <;> simp [publishes, publishesOf, answer, hrow, hmatch])

theorem rowRead_eq {m : OfferMoment R ι} (h : m.Happened perform) {row : OfferRow R}
    (hread : rowRead m = some row) : m.after.offer = some row := by
  obtain ⟨i, s, c, ans, after⟩ := m
  cases c with
  | get =>
    rcases happened_cases h with ⟨e, hanswer, -⟩ | ⟨hanswer, hafter⟩
    · simp only at hanswer
      subst hanswer
      cases hread
    · simp only at hanswer hafter
      subst hanswer hafter
      cases hrow : s.offer with
      | none => simp [rowRead, rowReadOf, answer, hrow] at hread
      | some row' => simpa [rowRead, rowReadOf, answer, hrow] using hread
  | getProduct | newId | create | update | delete | list | createChild | updateChild
  | deleteChild => cases ans <;> cases hread

theorem listed_eq {m : OfferMoment R ι} (h : m.Happened perform) {t : ChildTable}
    {rows : List (ChildRow (R.Columns t))} (hlisted : listed t m = some rows) :
    m.call = .list t ∧ m.after.children t = rows := by
  obtain ⟨i, s, c, ans, after⟩ := m
  cases c with
  | list t' =>
    rcases happened_cases h with ⟨e, hanswer, -⟩ | ⟨hanswer, hafter⟩
    · simp only at hanswer
      subst hanswer
      cases hlisted
    · simp only at hanswer hafter
      subst hanswer hafter
      by_cases ht : t' = t
      · subst ht
        simpa [listed, listedOf, answer] using hlisted
      · simp [listed, listedOf, answer, ht] at hlisted
  | getProduct | newId | get | create | update | delete | createChild | updateChild
  | deleteChild => cases ans <;> cases hlisted

theorem children_eq {m : OfferMoment R ι} (h : m.Happened perform) {t : ChildTable}
    (hwrites : m.call.writes t = false) : m.after.children t = m.before.children t := by
  have hne : ∀ t', (t' == t) = false → t ≠ t' := fun t' h' heq => by simp [heq] at h'
  obtain ⟨i, s, c, ans, after⟩ := m
  rcases happened_cases h with ⟨e, -, hafter⟩ | ⟨-, hafter⟩
  · rw [hafter]
  · simp only at hafter
    subst hafter
    cases c with
    | getProduct | newId | list | delete => rfl
    | get | create => cases hrow : s.offer <;> simp [answer, hrow]
    | update status revision write =>
      cases hrow : s.offer with
      | none => simp [answer, hrow]
      | some row =>
        by_cases hmatch : rowMatches status revision row = true <;> simp [answer, hrow, hmatch]
    | createChild t' row => exact Function.update_of_ne (hne t' hwrites) _ _
    | deleteChild t' id => exact Function.update_of_ne (hne t' hwrites) _ _
    | updateChild t' id key columns =>
      by_cases hid : (s.children t').any fun row => row.id == id
      · simp only [answer, hid, if_true]
        exact Function.update_of_ne (hne t' hwrites) _ _
      · simp [answer, hid]

theorem publishes_call {m : OfferMoment R ι} (h : publishes m) :
    ∃ status revision, m.call = .update status revision .publish := by
  obtain ⟨i, s, c, ans, after⟩ := m
  cases c with
  | update status revision write =>
    cases write with
    | publish => exact ⟨status, revision, rfl⟩
    | raise | settle | archive => cases ans <;> cases h
  | getProduct | newId | get | create | delete | list | createChild | updateChild | deleteChild =>
    cases ans <;> cases h

/-- The call created the offer row. -/
def created (m : OfferMoment R ι) : Prop := ∃ row, m.call = .create row ∧ opens m

theorem opens_cases {m : OfferMoment R ι} (h : opens m) :
    created m ∨ ∃ status revision version terms next,
      m.call = .update status revision (.raise version terms next) := by
  obtain ⟨i, s, c, ans, after⟩ := m
  cases c with
  | create row => exact .inl ⟨row, rfl, h⟩
  | update status revision write =>
    cases write with
    | raise version terms next => exact .inr ⟨status, revision, version, terms, next, rfl⟩
    | settle | publish | archive => cases ans <;> cases h
  | getProduct | newId | get | delete | list | createChild | updateChild | deleteChild =>
    cases ans <;> cases h

section Creation

variable [DecidableEq ι] {calls : OfferCalls R ι} {start : OfferStore R}

/-- A creating call that has opened the fence has created the row. -/
theorem created_of_opened {past : OfferHistory R ι} (h : Along (Genuine calls start) past) {i : ι}
    (hcreates : (calls.request i).creates) (hopened : Opened (past.own i)) :
    ∃ m ∈ past, created m := by
  obtain ⟨m, hm, hopens⟩ := hopened
  obtain ⟨hm, hproc⟩ := History.mem_own.mp hm
  refine ⟨m, hm, ?_⟩
  rcases opens_cases hopens with hcreated | ⟨status, revision, version, terms, next, hcall⟩
  · exact hcreated
  · obtain ⟨later, earlier, rfl⟩ := List.append_of_mem hm
    have hissues := h.earlier.1.issues
    rw [hcall, hproc] at hissues
    simp [hissues.1] at hcreates

/-- As long as the row has not been created, it is there if and only if it was there at first. -/
theorem isSome_of_not_created {past : OfferHistory R ι} (h : Along (Genuine calls start) past)
    (hnone : ∀ m ∈ past, ¬ created m) :
    (past.store start).offer.isSome = start.offer.isSome := by
  induction past with
  | nil => rfl
  | cons m past ih =>
    have hpast := ih h.2 fun m' hm' => hnone m' (List.mem_cons_of_mem _ hm')
    rw [← h.1.before] at hpast
    rw [History.store_cons]
    rcases rowChange h.1.happened with ⟨hafter, -, -⟩ | ⟨row, hcall, -, -, hopens⟩ |
      ⟨hcall, -⟩ | ⟨status, revision, write, row, hcall, hbefore, -, hafter, -⟩
    · rw [hafter, hpast]
    · exact absurd ⟨row, hcall, hopens⟩ (hnone m List.mem_cons_self)
    · have hissues := h.1.issues
      rw [hcall] at hissues
      obtain ⟨m', hm', hcreated⟩ := created_of_opened h.2 hissues.1 hissues.2
      exact absurd hcreated (hnone m' (List.mem_cons_of_mem _ hm'))
    · rw [hafter, ← hpast, hbefore]
      rfl

/-- Nothing is there before the row is created. -/
theorem not_created_of_some (later earlier : OfferHistory R ι)
    (h : Along (Genuine calls start) (later ++ earlier)) {row : OfferRow R}
    (hrow : (earlier.store start).offer = some row) : ∀ m ∈ later, ¬ created m := by
  rintro m hm ⟨row', hcall, hopens⟩
  obtain ⟨l, l', rfl⟩ := List.append_of_mem hm
  rw [List.append_assoc, List.cons_append] at h
  obtain ⟨hm, hpast⟩ := h.earlier
  have hissues := hm.issues
  rw [hcall] at hissues
  -- the offer is created once, so not before `m`
  have hfirst : ∀ m' ∈ l' ++ earlier, ¬ created m' := by
    rintro m' hm' ⟨row'', hcall', hopens'⟩
    obtain ⟨k, k', heq⟩ := List.append_of_mem hm'
    rw [heq] at hpast
    have hissues' := hpast.earlier.1.issues
    rw [hcall'] at hissues'
    have hproc : m'.proc = m.proc := calls.createdOnce _ _ hissues'.1 hissues.1
    exact hissues.2 ⟨m', History.mem_own.mpr ⟨hm', hproc⟩, hopens'⟩
  have hnone : m.before.offer = none := by
    rcases rowChange hm.happened with ⟨-, hclosed, -⟩ | ⟨_, -, hbefore, -, -⟩ | ⟨hcall', -⟩ |
      ⟨_, _, _, _, hcall', -, -, -, -⟩
    · rw [hclosed] at hopens
      cases hopens
    · exact hbefore
    · rw [hcall] at hcall'
      cases hcall'
    · rw [hcall] at hcall'
      cases hcall'
  have hstart := isSome_of_not_created hpast hfirst
  have hstart' := isSome_of_not_created hpast.earlier fun m' hm' =>
    hfirst m' (List.mem_append_right _ hm')
  rw [← hm.before, hnone, ← hstart', hrow] at hstart
  cases hstart

/-- What may be found of a row at a later time, if anything: its revision has not fallen, and it
has not become a draft again. -/
def Onward (row : OfferRow R) (offer : Option (OfferRow R)) : Prop :=
  ∀ row', offer = some row' → row.draftRevision ≤ row'.draftRevision ∧
    (row.status ≠ .draft → row'.status ≠ .draft)

theorem onward_apply {past : OfferHistory R ι} {m : OfferMoment R ι}
    (h : Genuine calls start past m) {status : OfferStatus} {revision : Option ℕ}
    {write : OfferWrite R} {row : OfferRow R} (hcall : m.call = .update status revision write)
    (hmatch : rowMatches status revision row) :
    row.draftRevision ≤ (write.apply row).draftRevision ∧
      (row.status ≠ .draft → (write.apply row).status ≠ .draft) := by
  have hissues := h.issues
  rw [hcall] at hissues
  cases write with
  | raise version terms next =>
    obtain ⟨-, -, current, hrevision, hnext⟩ := hissues
    have hcurrent : row.draftRevision = current := by
      simpa [rowMatches, hrevision] using (Bool.and_eq_true_iff.mp hmatch).2
    exact ⟨by rw [OfferWrite.apply, hnext, hcurrent]; exact Nat.le_succ _, id⟩
  | settle => exact ⟨Nat.le_refl _, id⟩
  | publish => exact ⟨Nat.le_refl _, fun _ => nofun⟩
  | archive => exact ⟨Nat.le_refl _, fun _ => nofun⟩

theorem onward (later earlier : OfferHistory R ι)
    (h : Along (Genuine calls start) (later ++ earlier)) {row : OfferRow R}
    (hrow : (earlier.store start).offer = some row) :
    Onward row (History.store start (later ++ earlier)).offer := by
  have hcreated := not_created_of_some later earlier h hrow
  induction later with
  | nil =>
    intro row' hrow'
    obtain rfl := Option.some.inj (hrow.symm.trans hrow')
    exact ⟨Nat.le_refl _, id⟩
  | cons m later ih =>
    rw [List.cons_append] at h ⊢
    have hpast := ih h.2 fun m' hm' => hcreated m' (List.mem_cons_of_mem _ hm')
    rw [← h.1.before] at hpast
    rw [History.store_cons]
    intro row' hrow'
    rcases rowChange h.1.happened with ⟨hafter, -, -⟩ | ⟨row'', hcall, -, -, hopens⟩ |
      ⟨-, hafter⟩ | ⟨status, revision, write, row'', hcall, hbefore, hmatch, hafter, -⟩
    · exact hpast row' (hafter ▸ hrow')
    · exact absurd ⟨row'', hcall, hopens⟩ (hcreated m List.mem_cons_self)
    · rw [hafter] at hrow'
      cases hrow'
    · obtain rfl := Option.some.inj (hafter.symm.trans hrow')
      obtain ⟨hle, hstatus⟩ := hpast row'' hbefore
      obtain ⟨hle', hstatus'⟩ := onward_apply h.1 hcall hmatch
      exact ⟨hle.trans hle', fun hne => hstatus' (hstatus hne)⟩

end Creation

section Fence

variable [DecidableEq ι] {calls : OfferCalls R ι} {start : OfferStore R}

/-- What a draft update does to the row whose fence it opens. -/
theorem raised {past : OfferHistory R ι} {m : OfferMoment R ι} (h : Genuine calls start past m)
    (hopens : opens m) (hcreated : ¬ created m) :
    ∃ row row', m.before.offer = some row ∧ row.status = .draft ∧ m.after.offer = some row' ∧
      row'.draftRevision = row.draftRevision + 1 := by
  rcases opens_cases hopens with hcreated' | ⟨status, revision, version, terms, next, hcall⟩
  · exact absurd hcreated' hcreated
  have hissues := h.issues
  rw [hcall] at hissues
  obtain ⟨-, hdraft, current, hrevision, hnext⟩ := hissues
  rcases rowChange h.happened with ⟨-, hclosed, -⟩ | ⟨_, hcall', -⟩ | ⟨hcall', -⟩ |
    ⟨status', revision', write, row, hcall', hbefore, hmatch, hafter, -⟩
  · rw [hclosed] at hopens
    cases hopens
  · rw [hcall] at hcall'
    cases hcall'
  · rw [hcall] at hcall'
    cases hcall'
  · obtain ⟨rfl, rfl, rfl⟩ : status = status' ∧ revision = revision' ∧
        OfferWrite.raise version terms next = write := by
      rw [hcall] at hcall'
      exact OfferCall.update.inj hcall'
    have hmatch' := Bool.and_eq_true_iff.mp hmatch
    have hcurrent : row.draftRevision = current := by
      simpa [hrevision] using hmatch'.2
    exact ⟨row, _, hbefore, by rw [← hdraft]; simpa using hmatch'.1, hafter,
      by rw [OfferWrite.apply, hnext, hcurrent]⟩

/-- What a publication does, and what its call has read. -/
theorem published {past : OfferHistory R ι} {m : OfferMoment R ι} (h : Genuine calls start past m)
    (hpublishes : publishes m) :
    ∃ row, m.before.offer = some row ∧ m.after.offer = some { row with status := .active } ∧
      Reviewed (History.own m.proc past) row.draftRevision := by
  obtain ⟨status, revision, hcall⟩ := publishes_call hpublishes
  have hissues := h.issues
  rw [hcall] at hissues
  obtain ⟨-, current, hrevision, hreviewed⟩ := hissues
  rcases rowChange h.happened with ⟨-, -, hnot⟩ | ⟨_, hcall', -⟩ | ⟨hcall', -⟩ |
    ⟨status', revision', write, row, hcall', hbefore, hmatch, hafter, -⟩
  · rw [hnot] at hpublishes
    cases hpublishes
  · rw [hcall] at hcall'
    cases hcall'
  · rw [hcall] at hcall'
    cases hcall'
  · obtain ⟨rfl, rfl, rfl⟩ : status = status' ∧ revision = revision' ∧
        OfferWrite.publish = write := by
      rw [hcall] at hcall'
      exact OfferCall.update.inj hcall'
    have hcurrent : row.draftRevision = current := by
      simpa [hrevision] using (Bool.and_eq_true_iff.mp hmatch).2
    exact ⟨row, hbefore, hafter, by rwa [hcurrent]⟩

theorem children_const (later earlier : OfferHistory R ι)
    (h : Along (Genuine calls start) (later ++ earlier)) {t : ChildTable}
    (hwrites : ∀ m ∈ later, m.call.writes t = false) :
    (History.store start (later ++ earlier)).children t = (earlier.store start).children t := by
  induction later with
  | nil => rfl
  | cons m later ih =>
    rw [List.cons_append, History.store_cons,
      children_eq h.1.happened (hwrites m List.mem_cons_self), h.1.before]
    exact ih h.2 fun m' hm' => hwrites m' (List.mem_cons_of_mem _ hm')

/-- After a publication the fence is not opened. -/
theorem not_opens_after {later earlier : OfferHistory R ι} {o w : OfferMoment R ι}
    (h : Along (Genuine calls start) (o :: (later ++ w :: earlier))) (hpublishes : publishes w) :
    opens o = false := by
  obtain ⟨row, -, hafter, _⟩ := published h.2.earlier.1 hpublishes
  have hcreated : ¬ created o :=
    not_created_of_some (o :: later) (w :: earlier) h hafter o
      List.mem_cons_self
  have honward := onward later (w :: earlier) h.2 hafter
  by_contra hopens
  obtain ⟨row', -, hbefore, hdraft, -⟩ := raised h.1 (by simpa using hopens) hcreated
  rw [h.1.before] at hbefore
  exact (honward row' hbefore).2 nofun hdraft

/-- Between the review of a row and its publication the fence is not opened. -/
theorem not_opens_between (later mid earlier : OfferHistory R ι) {w o g : OfferMoment R ι}
    (h : Along (Genuine calls start) (w :: (later ++ o :: (mid ++ g :: earlier))))
    {row row' : OfferRow R} (hread : rowRead g = some row) (hbefore : w.before.offer = some row')
    (hrevision : row'.draftRevision = row.draftRevision) : opens o = false := by
  have hrow : (History.store start (g :: earlier)).offer = some row :=
    rowRead_eq h.2.earlier.2.earlier.1.happened hread
  have hcreated : ¬ created o :=
    not_created_of_some (o :: mid) (g :: earlier) h.2.earlier hrow o
      List.mem_cons_self
  by_contra hopens
  obtain ⟨before, after, hobefore, -, hoafter, hraised⟩ :=
    raised h.2.earlier.1 (by simpa using hopens) hcreated
  rw [h.2.earlier.1.before] at hobefore
  have hle := (onward mid (g :: earlier) h.2.earlier.2 hrow before hobefore).1
  rw [h.1.before] at hbefore
  have hle' := (onward later (o :: (mid ++ g :: earlier)) h.2 hoafter row' hbefore).1
  omega

/-- The moments of one program, the latest of them first, in the history of all. -/
theorem own_split {i : ι} {past own : OfferHistory R ι} {m : OfferMoment R ι}
    (h : History.own i past = m :: own) :
    ∃ later earlier, past = later ++ m :: earlier ∧ History.own i earlier = own ∧ m.proc = i := by
  obtain ⟨later, earlier, hpast, -, hproc, hown⟩ := List.filter_eq_cons_iff.mp h
  exact ⟨later, earlier, hpast, hown, by simpa using hproc⟩

theorem not_opens_of_publishes {w : OfferMoment R ι} (h : publishes w) : opens w = false := by
  obtain ⟨status, revision, hcall⟩ := publishes_call h
  by_contra hopens
  rcases opens_cases (by simpa using hopens) with ⟨row, hcall', -⟩ | ⟨_, _, _, _, _, hcall'⟩
  · rw [hcall] at hcall'
    cases hcall'
  · rw [hcall] at hcall'
    cases hcall'

theorem opened_of_writes {past : OfferHistory R ι} {m : OfferMoment R ι}
    (h : Genuine calls start past m) {t : ChildTable} (hwrites : m.call.writes t) :
    Opened (History.own m.proc past) := by
  have hissues := h.issues
  cases hcall : m.call with
  | createChild | updateChild | deleteChild => rwa [hcall] at hissues
  | getProduct | newId | get | create | update | delete | list => simp [hcall, OfferCall.writes] at hwrites

/-- No call opens the fence between the listing of a table and the publication it leads to, nor
after the publication. -/
theorem closed_of_publishes {later mid early rest : OfferHistory R ι} {w l g : OfferMoment R ι}
    (h : Along (Genuine calls start) (later ++ w :: (mid ++ l :: (early ++ g :: rest))))
    (hpublishes : publishes w) {row row' : OfferRow R} (hread : rowRead g = some row)
    (hbefore : w.before.offer = some row') (hrevision : row'.draftRevision = row.draftRevision) :
    ∀ o ∈ later ++ w :: mid, opens o = false := by
  intro o ho
  rcases List.mem_append.mp ho with ho | ho
  · obtain ⟨l₁, l₂, rfl⟩ := List.append_of_mem ho
    rw [List.append_assoc, List.cons_append] at h
    exact not_opens_after h.earlier hpublishes
  rcases List.mem_cons.mp ho with rfl | ho
  · exact not_opens_of_publishes hpublishes
  · obtain ⟨l₁, l₂, rfl⟩ := List.append_of_mem ho
    have hbetween : Along (Genuine calls start)
        (w :: (l₁ ++ o :: ((l₂ ++ l :: early) ++ g :: rest))) := by simpa using h.earlier
    exact not_opens_between l₁ (l₂ ++ l :: early) rest hbetween hread hbefore hrevision

/-- Once a child table has been listed for a publication that takes place, it stays as listed,
unless a writer is left behind. -/
theorem children_pinned (later mid early rest : OfferHistory R ι) {w l g : OfferMoment R ι}
    (h : Along (Genuine calls start) (later ++ w :: (mid ++ l :: (early ++ g :: rest))))
    (hpublishes : publishes w) (hproc : w.proc = l.proc) {row row' : OfferRow R}
    (hread : rowRead g = some row) (hbefore : w.before.offer = some row')
    (hrevision : row'.draftRevision = row.draftRevision) {t : ChildTable}
    {rows : List (ChildRow (R.Columns t))} (hlisted : listed t l = some rows)
    (hunstalled : LeavesNone (later ++ w :: mid) l (early ++ g :: rest)) :
    ∀ m ∈ later ++ [w], m.after.children t = rows := by
  have hclosed := closed_of_publishes h hpublishes hread hbefore hrevision
  have hrun : later ++ w :: (mid ++ l :: (early ++ g :: rest)) =
      (later ++ w :: mid) ++ l :: (early ++ g :: rest) := by simp
  rw [hrun] at h
  obtain ⟨hlist, hrows⟩ := listed_eq h.earlier.1.happened hlisted
  -- a write would be by a call that had opened the fence, hence one left behind
  have hwrites : ∀ m ∈ later ++ w :: mid, m.call.writes t = false := by
    intro m hm
    by_contra hwrites
    obtain ⟨l₁, l₂, heq⟩ := List.append_of_mem hm
    have hm' : Along (Genuine calls start) (m :: (l₂ ++ l :: (early ++ g :: rest))) := by
      rw [heq, List.append_assoc] at h
      exact h.earlier
    obtain ⟨o, ho, hopens⟩ := opened_of_writes hm'.1 (by simpa using hwrites)
    obtain ⟨ho, hproc'⟩ := History.mem_own.mp ho
    have hnot : opens o = false := by
      rcases List.mem_append.mp ho with ho | ho
      · exact hclosed o (by rw [heq]; simp [ho])
      rcases List.mem_cons.mp ho with rfl | ho
      · simp [opens, opensOf, hlist]
      · exact hunstalled t (by simp [hlist, OfferCall.lists]) ⟨w, by simp, hproc, hpublishes⟩ m hm
          (by simpa using hwrites) o ho hproc'
    rw [hnot] at hopens
    cases hopens
  intro m hm
  obtain ⟨l₁, l₂, heq⟩ := List.append_of_mem hm
  have hsplit : later ++ w :: mid = l₁ ++ (m :: (l₂ ++ mid)) := by
    have := congrArg (· ++ mid) heq
    simpa using this
  rw [hsplit, List.append_assoc] at h
  have hconst := children_const (m :: (l₂ ++ mid)) _ h.earlier fun m' hm' =>
    hwrites m' (by rw [hsplit]; exact List.mem_append_right _ hm')
  exact hconst.trans hrows

/-- In every run of calls on one offer in which no publication leaves a writer behind, the offer
is from its publication on what was reviewed. -/
theorem published_immutable (calls : OfferCalls R ι) (start : OfferStore R)
    (schedule : List (ι × Option WaferError))
    (hunstalled : Unstalled (serve calls start schedule).history) :
    Immutable (serve calls start schedule).history := by
  have h := serve_genuine calls start schedule
  rintro later w earlier hrun hpublishes
  rw [hrun] at h hunstalled
  obtain ⟨row', hbefore, -, readRow, readVariables, readComponents, row, variableRows,
    componentRows, offer, hown, hread, hvariables, hcomponents, -, -, hrevision, hoffer, hvalid⟩ :=
    published h.earlier.1 hpublishes
  obtain ⟨mid, early, rfl, hown, hproc⟩ := own_split hown
  obtain ⟨mid', early', rfl, hown, hproc'⟩ := own_split hown
  obtain ⟨mid'', rest, rfl, -, hproc''⟩ := own_split hown
  have hcomponentsPinned : ∀ m ∈ later ++ [w],
      m.after.children .offerComponents = componentRows := by
    have h' : Along (Genuine calls start) (later ++ w :: (mid ++
        readComponents :: ((mid' ++ readVariables :: mid'') ++ readRow :: rest))) := by
      simpa using h
    exact children_pinned later mid (mid' ++ readVariables :: mid'') rest h' hpublishes
      hproc.symm hread hbefore hrevision.symm hcomponents
      (Unstalled.split (by simpa using hunstalled))
  have hvariablesPinned : ∀ m ∈ later ++ [w],
      m.after.children .offerVariables = variableRows := by
    have h' : Along (Genuine calls start) (later ++ w :: ((mid ++ readComponents :: mid') ++
        readVariables :: (mid'' ++ readRow :: rest))) := by
      simpa using h
    exact children_pinned later (mid ++ readComponents :: mid') mid'' rest h' hpublishes
      hproc'.symm hread hbefore hrevision.symm hvariables
      (Unstalled.split (by simpa using hunstalled))
  have hchildren : ∀ m ∈ later ++ [w],
      m.after.children = childSet variableRows componentRows := by
    intro m hm
    funext t
    cases t with
    | offerVariables => exact hvariablesPinned m hm
    | offerComponents => exact hcomponentsPinned m hm
  have hw := hchildren w (by simp)
  refine ⟨⟨readRow, ?_, readVariables, ?_, readComponents, ?_, row, offer, hread, ?_, ?_, ?_,
    hvalid⟩, fun m hm => (hchildren m (List.mem_append_left _ hm)).trans hw.symm⟩
  · exact History.mem_own.mpr ⟨by simp, hproc''⟩
  · exact History.mem_own.mpr ⟨by simp, hproc'⟩
  · exact History.mem_own.mpr ⟨by simp, hproc⟩
  · rw [hw]
    exact hvariables
  · rw [hw]
    exact hcomponents
  · rw [hw]
    exact hoffer

end Fence

section Example

/-- The rules for offers of one fixed price, given in minor units: no variables, and one
component that carries the price. -/
def fixedPrice : OfferRules where
  Definition := ℕ
  Terms := ℕ
  Draft _ := ℕ
  Columns _ := ℕ
  Offer := List ℕ
  drafts t amount :=
    match t with
    | .offerVariables => []
    | .offerComponents => [amount]
  key _ _ := "bag"
  dataFor _ amount := .ok amount
  buildOffer _ amount := .ok amount
  hydrate _ rows := .ok ((rows .offerComponents).map ChildRow.columns)
  validateOffer amounts :=
    if amounts.isEmpty then
      .error ⟨.invalidArgument,
        "offer requires a version, interval count, and at least one component"⟩
    else .ok ()
  intoValues _ rows := rows

/-- A draft at 14.50. -/
def draftOffer : OfferStore fixedPrice where
  offer := some ⟨"prod_1", .draft, 1, 0, false, (1450 : ℕ)⟩
  children
    | .offerVariables => []
    | .offerComponents => [⟨0, "bag", (1450 : ℕ)⟩]
  products := ["prod_1"]
  nextId := 1

/-- Two updates of the draft, to 15.00 and to 16.00, and a publication. -/
def repriced : OfferCalls fixedPrice (Fin 3) where
  request
    | 0 => .updateDraft "prod_1" (1500 : ℕ)
    | 1 => .updateDraft "prod_1" (1600 : ℕ)
    | 2 => .publish "prod_1"
  createdOnce i j hi _ := by
    unfold OfferRequest.creates at hi
    split at hi
    · rename_i heq
      split at heq <;> cases heq
    · cases hi

/-- The turns of one call, none of which fails. -/
def turns (i : Fin 3) (n : ℕ) : List (Fin 3 × Option WaferError) := List.replicate n (i, none)

/-- The prices in the store after a moment. -/
def price (m : OfferMoment fixedPrice (Fin 3)) : List ℕ :=
  (m.after.children .offerComponents).map ChildRow.columns

/-- The first update opens the fence and stalls; the second passes it and is published at 16.00;
then the first goes on, and the published offer costs 15.00. -/
theorem published_immutable_fails_stalled :
    ¬ Immutable (serve repriced draftOffer
      (turns 0 2 ++ turns 1 9 ++ turns 2 4 ++ turns 0 3)).history := by
  intro h
  set run := (serve repriced draftOffer
    (turns 0 2 ++ turns 1 9 ++ turns 2 4 ++ turns 0 3)).history with hrun
  obtain ⟨w, hw⟩ : ∃ w, run[3]? = some w :=
    Option.isSome_iff_exists.mp (by rw [hrun]; decide +kernel)
  obtain ⟨m, hm⟩ : ∃ m, run[0]? = some m :=
    Option.isSome_iff_exists.mp (by rw [hrun]; decide +kernel)
  have hpublishes : run[3]?.map publishes = some true := by rw [hrun]; decide +kernel
  have hsold : run[3]?.map price = some [1600] := by rw [hrun]; decide +kernel
  have hlast : run[0]?.map price = some [1500] := by rw [hrun]; decide +kernel
  rw [hw, Option.map_some, Option.some.injEq] at hpublishes hsold
  rw [hm, Option.map_some, Option.some.injEq] at hlast
  have hsplit : run = run.take 3 ++ w :: run.drop 4 := by
    obtain ⟨hlt, rfl⟩ := List.getElem?_eq_some_iff.mp hw
    rw [← List.drop_eq_getElem_cons hlt, List.take_append_drop]
  have hmem : m ∈ run.take 3 := by
    rw [List.mem_take_iff_getElem]
    obtain ⟨hlt, heq⟩ := List.getElem?_eq_some_iff.mp hm
    exact ⟨0, by omega, heq⟩
  have hfixed := (h _ w _ hsplit hpublishes).fixed m hmem
  have hprice : price m = price w := congrArg
    (fun children => (children .offerComponents).map ChildRow.columns) hfixed
  rw [hprice, hsold] at hlast
  cases hlast

/-- With both updates at rest the publication stands. -/
theorem published_immutable_settled :
    Unstalled (serve repriced draftOffer (turns 0 9 ++ turns 1 9 ++ turns 2 7)).history ∧
      Immutable (serve repriced draftOffer (turns 0 9 ++ turns 1 9 ++ turns 2 7)).history :=
  have hunstalled : Unstalled
      (serve repriced draftOffer (turns 0 9 ++ turns 1 9 ++ turns 2 7)).history := by
    decide +kernel
  ⟨hunstalled, published_immutable repriced draftOffer _ hunstalled⟩

end Example

end Offers

end Products
