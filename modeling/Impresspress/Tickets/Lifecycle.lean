import Impresspress.Tickets.Effects

/-!
# The lifecycle of a ticket

Requests are served one after the other, and any of their calls may fail. The columns of a ticket
agree with one another in every state: it has an expiry exactly when it is closed and not under a
hold, it is resolved exactly when it is closed, and it names a duplicate exactly when it is one. A
request moves a ticket along the transitions of the workflow and leaves the report alone, and only a
retention pass takes a ticket away: one that was closed a day before, at least, and is not held.

## Main definitions

* `Tickets.TicketRow.Coherent`: the columns of a ticket agree.
* `Tickets.TicketRow.report`: what no request changes.

## Main results

* `Tickets.lifecycle`: every run keeps the lifecycle.
-/

namespace Tickets

/-- The block as it is installed. -/
def Store.fresh (types : Relational.Table typeSchema) (settings : String → Option String)
    (clock : Instant) : Store where
  types
  tickets := .empty
  events := .empty
  analyses := .empty
  maintenance := ⟨none, "", false⟩
  rateCounters := []
  settings
  clock

/-- The columns of a ticket agree, at a time. -/
structure TicketRow.Coherent (row : TicketRow) (clock : Instant) : Prop where
  expires : row.expiresAt = none ↔ (row.status.isOpen || row.legalHold) = true
  resolved : row.resolvedAt = none ↔ row.status.isOpen = true
  target : row.status = .duplicate ↔ row.duplicateOf.isSome = true
  named : row.duplicateOf ≠ some ""
  other : row.duplicateOf ≠ some row.id
  past : ∀ r, row.resolvedAt = some r → r ≤ clock
  kept : ∀ e, row.expiresAt = some e → ∃ r, row.resolvedAt = some r ∧ r + Instant.days 1 ≤ e

/-- A ticket without the columns that requests change: the report and where it came from. -/
def TicketRow.report (row : TicketRow) : TicketRow :=
  { row with
    status := .new
    priority := ""
    assigneeId := ""
    duplicateOf := none
    legalHold := false
    resolvedAt := none
    expiresAt := none
    updatedAt := 0 }

theorem report_write (row : TicketRow) (columns : TicketWrite) :
    (row.write columns).report = row.report := rfl

theorem report_writeAt (id : String) (columns : TicketWrite) (row : TicketRow) :
    (row.writeAt id columns).report = row.report := by
  unfold TicketRow.writeAt
  split <;> rfl

namespace TicketRow

variable {row current : TicketRow} {clock now : Instant} {changes : Changes}
  {effective : TicketStatus} {duplicate : Option String} {expiry : Option Instant}
  {stamp : Instant}

theorem Coherent.later (h : row.Coherent clock) {clock' : Instant} (hclock : clock ≤ clock') :
    row.Coherent clock' :=
  { h with past := fun r hr => (h.past r hr).trans hclock }

theorem TakenIn.coherent (h : row.TakenIn) : row.Coherent clock where
  expires := by simp [h.status, h.expiresAt, TicketStatus.isOpen]
  resolved := by simp [h.status, h.resolvedAt, TicketStatus.isOpen]
  target := by simp [h.status, h.duplicateOf]
  named := by simp [h.duplicateOf]
  other := by simp [h.duplicateOf]
  past r hr := by simp [h.resolvedAt] at hr
  kept e he := by simp [h.expiresAt] at he

/-- What is written as the target of a duplicate is what was worked out. -/
theorem Coherent.duplicateOf_eq (h : current.Coherent clock)
    (hchange : ChangeOf current changes effective duplicate) :
    changes.duplicateOf.getD current.duplicateOf = duplicate := by
  have htarget : current.duplicateTarget = current.duplicateOf := by
    unfold duplicateTarget
    cases hsome : current.duplicateOf with
    | none => rfl
    | some target =>
      exact Option.filter_some_pos (decide_eq_true fun hempty => h.named (hempty ▸ hsome))
  rw [hchange.duplicateOf, htarget]
  split
  · rename_i hsame
    exact hsame.symm
  · rfl

/-- The expiry that is worked out is the one the row has after the change. -/
theorem expiresAt_write {hold : Bool}
    (hexpiry : ExpiryAfter current changes effective hold now expiry) :
    (current.write (changes.columns effective expiry now stamp)).expiresAt = expiry := by
  cases hlifecycle : changes.lifecycleChanged with
  | true => simp [TicketRow.write, Changes.columns, hlifecycle]
  | false => simp [TicketRow.write, Changes.columns, hlifecycle, hexpiry.same hlifecycle]

/-- A change keeps the columns in agreement. -/
theorem Coherent.write (h : current.Coherent clock)
    (hchange : ChangeOf current changes effective duplicate) (hnow : clock ≤ now)
    (hexpiry : ExpiryAfter current changes effective (changes.legalHold.getD current.legalHold)
      now expiry) :
    (current.write (changes.columns effective expiry now stamp)).Coherent now := by
  have hstatus : (current.write (changes.columns effective expiry now stamp)).status = effective :=
    hchange.settled.symm
  have hduplicate : (current.write (changes.columns effective expiry now stamp)).duplicateOf =
    duplicate := h.duplicateOf_eq hchange
  have hresolved : (current.write (changes.columns effective expiry now stamp)).resolvedAt =
      if changes.status.isSome then if effective.isOpen then none else some now
      else current.resolvedAt := by
    cases hsome : changes.status <;> simp [TicketRow.write, Changes.columns, hsome]
  have hexpires : (current.write (changes.columns effective expiry now stamp)).expiresAt =
    expiry := expiresAt_write hexpiry
  have hheld : (current.write (changes.columns effective expiry now stamp)).legalHold =
    changes.legalHold.getD current.legalHold := rfl
  have hsame : changes.status.isSome = false → effective = current.status := fun hsome => by
    have hnone : changes.status = none := by simpa using hsome
    rw [hchange.settled, hnone, Option.getD_none]
  have hresolved_iff : (current.write (changes.columns effective expiry now stamp)).resolvedAt =
      none ↔ effective.isOpen = true := by
    rw [hresolved]
    cases hsome : changes.status.isSome with
    | true => cases effective.isOpen <;> simp
    | false => simpa [hsame hsome] using h.resolved
  refine ⟨?_, ?_, ?_, ?_, ?_, fun r hr => ?_, fun e he => ?_⟩
  · rw [hstatus, hexpires, hheld]
    cases hlifecycle : changes.lifecycleChanged with
    | true =>
      cases hopen : effective.isOpen || changes.legalHold.getD current.legalHold with
      | true => exact iff_of_true (hexpiry.none hlifecycle hopen) rfl
      | false =>
        obtain ⟨e, he, -⟩ := hexpiry.some hlifecycle hopen
        exact iff_of_false (by rw [he]; exact nofun) nofun
    | false =>
      obtain ⟨hstatus', hhold'⟩ := Bool.or_eq_false_iff.mp hlifecycle
      have hnone : changes.legalHold = none := by simpa using hhold'
      rw [hexpiry.same hlifecycle, hsame hstatus', hnone, Option.getD_none]
      exact h.expires
  · rw [hresolved_iff, hstatus]
  · rw [hstatus, hduplicate]
    by_cases heffective : effective = .duplicate
    · obtain ⟨target, htarget, -⟩ := hchange.target heffective
      exact iff_of_true heffective (by rw [htarget]; rfl)
    · exact iff_of_false heffective (by rw [hchange.noTarget heffective]; exact nofun)
  · rw [hduplicate]
    exact hchange.nonempty
  · rw [hduplicate]
    by_cases heffective : effective = .duplicate
    · obtain ⟨target, htarget, hne⟩ := hchange.target heffective
      rw [htarget]
      exact fun hself => hne (Option.some.inj hself)
    · rw [hchange.noTarget heffective]
      exact nofun
  · rw [hresolved] at hr
    split_ifs at hr
    · exact (Option.some.inj hr).ge
    · exact (h.past r hr).trans hnow
  · rw [hexpires] at he
    cases hlifecycle : changes.lifecycleChanged with
    | false =>
      obtain ⟨hstatus', -⟩ := Bool.or_eq_false_iff.mp hlifecycle
      rw [hresolved, hstatus', if_neg Bool.false_ne_true]
      exact h.kept e ((hexpiry.same hlifecycle).symm.trans he)
    | true =>
      cases hopen : effective.isOpen || changes.legalHold.getD current.legalHold with
      | true => exact absurd (he.symm.trans (hexpiry.none hlifecycle hopen)) nofun
      | false =>
        obtain ⟨e', he', hday⟩ := hexpiry.some hlifecycle hopen
        obtain rfl := Option.some.inj (he.symm.trans he')
        have hclosed : effective.isOpen = false := (Bool.or_eq_false_iff.mp hopen).1
        rw [hresolved]
        cases hsome : changes.status.isSome with
        | true => exact ⟨now, by simp [hclosed], hday⟩
        | false =>
          -- the hold was lifted: the ticket had been closed before
          have hnot : current.resolvedAt ≠ none := fun hnone => by
            rw [h.resolved, ← hsame hsome, hclosed] at hnone
            exact Bool.false_ne_true hnone
          obtain ⟨r, hr⟩ := Option.ne_none_iff_exists'.mp hnot
          exact ⟨r, hr, (Nat.add_le_add_right ((h.past r hr).trans hnow) _).trans hday⟩

end TicketRow

/-- Every ticket of a store is coherent at its time. -/
def Store.Coherent (s : Store) : Prop := ∀ ticket ∈ s.data.tickets, ticket.Coherent s.clock

/-- The ticket that a change was made to, as it is in the table. -/
theorem mem_writeAt {rows : List TicketRow} {id : String} {columns : TicketWrite}
    {ticket : TicketRow} :
    ticket ∈ rows.map (.writeAt id columns) ↔
      ∃ old ∈ rows, (if old.id = id then old.write columns else old) = ticket :=
  List.mem_map

section Step

variable {s s' : Store} {prunes failed : Prop}

/-- The one row with an id. -/
theorem eq_of_id {a b : TicketRow} (ha : a ∈ s.data.tickets) (hb : b ∈ s.data.tickets)
    (hid : a.id = b.id) : a = b := s.tickets.eq_of_key_eq ha hb hid

theorem Ending.coherent (h : Ending s prunes failed s') (hs : s.Coherent) : s'.Coherent := by
  intro ticket hticket
  cases h.effect with
  | kept hdata => exact (hs ticket (hdata ▸ hticket)).later h.clock
  | created row hrow hcontinues hnew htickets =>
    rw [htickets] at hticket
    rcases List.mem_append.mp hticket with hmem | hmem
    · exact (hs ticket hmem).later h.clock
    · exact List.mem_singleton.mp hmem ▸ hrow.coherent
  | changed id current changes effective duplicate actorType actorId reason now expiry stamp hmem
      hid hchange hstored =>
    rw [hstored.tickets] at hticket
    obtain ⟨old, hold, rfl⟩ := mem_writeAt.mp hticket
    split
    · rename_i hsame
      obtain rfl := eq_of_id hold hmem (hsame.trans hid.symm)
      exact ((hs old hold).write hchange hstored.since hstored.expires).later hstored.before
    · exact (hs old hold).later h.clock
  | noted noted event hmem hid hmetadata hexpiry hdata =>
    rw [hdata] at hticket
    exact (hs ticket hticket).later h.clock
  | analysed analysed analysis hmem hid hexpiry hdata =>
    rw [hdata] at hticket
    exact (hs ticket hticket).later h.clock
  | pruned hprunes now analyses events tickets hnow hfailed hdata =>
    rw [hdata] at hticket
    exact (hs ticket (List.mem_of_mem_filter hticket)).later h.clock

/-- What a step does to a ticket: it stays, its report as it was, and has moved along a transition;
or it is taken away by a pass, not held, a day at least after it was closed. -/
def Keeps (prunes : Prop) (ticket : TicketRow) (s' : Store) : Prop :=
  (∃ ticket' ∈ s'.data.tickets, ticket'.report = ticket.report ∧
    ticket.status.canTransitionTo ticket'.status = true) ∨
  prunes ∧ ticket.status.isOpen = false ∧ ticket.legalHold = false ∧
    ∃ r, ticket.resolvedAt = some r ∧ r + Instant.days 1 < s'.clock

theorem canTransitionTo_self (status : TicketStatus) : status.canTransitionTo status = true :=
  if_pos rfl

theorem Keeps.of_mem {ticket : TicketRow} (h : ticket ∈ s'.data.tickets) :
    Keeps prunes ticket s' :=
  .inl ⟨ticket, h, rfl, canTransitionTo_self _⟩

theorem Ending.keeps (h : Ending s prunes failed s') (hs : s.Coherent) {ticket : TicketRow}
    (hticket : ticket ∈ s.data.tickets) : Keeps prunes ticket s' := by
  cases h.effect with
  | kept hdata => exact .of_mem (hdata ▸ hticket)
  | created row hrow hcontinues hnew htickets =>
    exact .of_mem (htickets ▸ List.mem_append_left _ hticket)
  | changed id current changes effective duplicate actorType actorId reason now expiry stamp hmem
      hid hchange hstored =>
    refine .inl ⟨ticket.writeAt id (changes.columns effective expiry now stamp), ?_,
      report_writeAt .., ?_⟩
    · rw [hstored.tickets]
      exact List.mem_map_of_mem hticket
    · unfold TicketRow.writeAt
      split
      · rename_i hsame
        obtain rfl := eq_of_id hticket hmem (hsame.trans hid.symm)
        show ticket.status.canTransitionTo (changes.status.getD ticket.status) = true
        cases hstatus : changes.status with
        | none => exact canTransitionTo_self _
        | some status => exact (hchange.moved status hstatus).2
      · exact canTransitionTo_self _
  | noted noted event hmem hid hmetadata hexpiry hdata =>
    exact .of_mem (by rw [hdata]; exact hticket)
  | analysed analysed analysis hmem hid hexpiry hdata =>
    exact .of_mem (by rw [hdata]; exact hticket)
  | pruned hprunes now analyses events tickets hnow hfailed hdata =>
    by_cases hexpired : (tickets && expired now ticket.expiresAt) = true
    · obtain ⟨-, hexpired⟩ := Bool.and_eq_true_iff.mp hexpired
      cases he : ticket.expiresAt with
      | none => simp [he, expired] at hexpired
      | some e =>
        rw [he, expired, Option.any_some, decide_eq_true_eq] at hexpired
        have hcoherent := hs ticket hticket
        have hclosed : ¬ (ticket.status.isOpen || ticket.legalHold) = true := fun hopen => by
          rw [hcoherent.expires.mpr hopen] at he
          cases he
        obtain ⟨hopen, hhold⟩ := Bool.or_eq_false_iff.mp (eq_false_of_ne_true hclosed)
        obtain ⟨r, hr, hday⟩ := hcoherent.kept e he
        exact .inr ⟨hprunes, hopen, hhold, r, hr, hday.trans_lt (hexpired.trans_le hnow)⟩
    · refine .of_mem ?_
      rw [hdata]
      exact List.mem_filter.mpr ⟨hticket, by rw [eq_false_of_ne_true hexpired]; rfl⟩

end Step

section Runs

variable {tools : Tools} {s : Store}

theorem Store.Coherent.step (hs : s.Coherent) (step : Step tools) : (s.step step).Coherent := by
  cases step with
  | request request chances => exact (s.ending_serve request chances).coherent hs
  | configure types settings => exact hs

theorem Store.Coherent.run (hs : s.Coherent) (steps : List (Step tools)) :
    (s.run steps).Coherent := by
  induction steps generalizing s with
  | nil => exact hs
  | cons step steps ih => exact ih (hs.step step)

end Runs

/-- Whatever is asked of the block, one request after the other, and whichever calls fail: the
columns of every ticket agree in every state, and a step keeps each ticket with its report, moved
along a transition of the workflow, unless a pass takes it away that is closed, not held, and was
closed a day before or more. A step that is no pass takes nothing out of the timeline. -/
theorem lifecycle {tools : Tools} (types : Relational.Table typeSchema)
    (settings : String → Option String) (clock : Instant) (steps : List (Step tools)) :
    let s := (Store.fresh types settings clock).run steps
    (∀ ticket ∈ s.tickets.rows, ticket.Coherent s.clock) ∧
    ∀ (request : Request tools) (chances : ℕ → Chance),
      let s' := s.step (.request request chances)
      (∀ ticket ∈ s.tickets.rows, Keeps request.IsPrune ticket s') ∧
      (¬ request.IsPrune → s.events.rows.map (·.entry) <+: s'.events.rows.map (·.entry) ∧
        s.analyses.rows.map (·.entry) <+: s'.analyses.rows.map (·.entry)) := by
  intro s
  have hs : s.Coherent :=
    Store.Coherent.run (fun _ hticket => absurd hticket List.not_mem_nil) steps
  refine ⟨hs, fun request chances => ?_⟩
  have hending := s.ending_serve request chances
  refine ⟨fun ticket hticket => hending.keeps hs hticket, fun hprune => ?_⟩
  have hcontinues := hending.effect.continues.resolve_right fun h => hprune h.1
  exact ⟨hcontinues.events, hcontinues.analyses⟩

end Tickets
