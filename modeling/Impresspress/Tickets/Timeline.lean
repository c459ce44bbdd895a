import Impresspress.Tickets.Lifecycle

/-!
# The timeline of a ticket

A change is recorded beside the row it is written to, in a table of its own, and the expiry of a
ticket is copied to every row about it. Calls that do this may fail. Unless the flag of the audit is
up, or some request has answered a failure although it had changed rows, the timeline is complete:
the workflow columns of every ticket can be read off its events, and whatever is recorded of a
ticket expires with it.

## Main definitions

* `Tickets.Data.workflowOf`: the workflow columns as the events tell of them.
* `Tickets.Data.InStep`: the timeline is complete.

## Main results

* `Tickets.timeline`: it is, unless that is flagged or was answered.
-/

namespace Tickets

/-- The columns of a ticket that was taken in with a priority, after what its events tell of. -/
def Data.workflowOf (d : Data) (id priority : String) : Workflow :=
  (d.events.filter (·.ticketId = id)).foldl (fun w event => w.record event.metadata)
    ⟨.new, priority, "", none, false⟩

/-- The timeline is complete: events tell of every change, and what is recorded of a ticket expires
with it. -/
structure Data.InStep (d : Data) : Prop where
  replays : ∀ ticket ∈ d.tickets, ∃ priority, d.workflowOf ticket.id priority = ticket.workflow
  events : ∀ event ∈ d.events, ∃ ticket ∈ d.tickets, ticket.id = event.ticketId ∧
    ticket.expiresAt = event.expiresAt
  analyses : ∀ analysis ∈ d.analyses, ∃ ticket ∈ d.tickets, ticket.id = analysis.ticketId ∧
    ticket.expiresAt = analysis.expiresAt

section Records

variable {d : Data} {id priority : String}

/-- An event is the last of its ticket and none of another. -/
theorem workflowOf_append (d : Data) (event : EventRow) (id priority : String) :
    ({ d with events := d.events ++ [event] } : Data).workflowOf id priority =
      if event.ticketId = id then (d.workflowOf id priority).record event.metadata
      else d.workflowOf id priority := by
  unfold Data.workflowOf
  rw [List.filter_append, List.foldl_append]
  by_cases h : event.ticketId = id <;> simp [h]

/-- An event that tells of no change. -/
theorem record_of_silent {w : Workflow} {metadata : Metadata}
    (h : metadata = [] ∨ ∃ value, metadata = [("source", value)]) : w.record metadata = w := by
  rcases h with rfl | ⟨value, rfl⟩ <;> rfl

@[simp] theorem EventRow.ticketId_expireAt (ticketId : String) (expiresAt : Option Instant)
    (event : EventRow) : (event.expireAt ticketId expiresAt).ticketId = event.ticketId := by
  unfold EventRow.expireAt
  split <;> rfl

@[simp] theorem EventRow.metadata_expireAt (ticketId : String) (expiresAt : Option Instant)
    (event : EventRow) : (event.expireAt ticketId expiresAt).metadata = event.metadata := by
  unfold EventRow.expireAt
  split <;> rfl

theorem EventRow.expiresAt_expireAt (ticketId : String) (expiresAt : Option Instant)
    (event : EventRow) : (event.expireAt ticketId expiresAt).expiresAt =
      if event.ticketId = ticketId then expiresAt else event.expiresAt := by
  unfold EventRow.expireAt
  split <;> rfl

theorem AnalysisRow.ticketId_expireAt (ticketId : String) (expiresAt : Option Instant)
    (analysis : AnalysisRow) :
    (analysis.expireAt ticketId expiresAt).ticketId = analysis.ticketId := by
  unfold AnalysisRow.expireAt
  split <;> rfl

theorem AnalysisRow.expiresAt_expireAt (ticketId : String) (expiresAt : Option Instant)
    (analysis : AnalysisRow) : (analysis.expireAt ticketId expiresAt).expiresAt =
      if analysis.ticketId = ticketId then expiresAt else analysis.expiresAt := by
  unfold AnalysisRow.expireAt
  split <;> rfl

/-- The expiry of events does not matter. -/
theorem workflowOf_expire (d : Data) (ticketId : String) (expiresAt : Option Instant)
    (id priority : String) :
    (d.expire ticketId expiresAt).workflowOf id priority = d.workflowOf id priority := by
  simp [Data.workflowOf, Data.expire, List.filter_map, List.foldl_map, Function.comp_def]

/-- Without events of its own a ticket is as it was taken in. -/
theorem workflowOf_of_none (h : ∀ event ∈ d.events, event.ticketId ≠ id) :
    d.workflowOf id priority = ⟨.new, priority, "", none, false⟩ := by
  have hnone : d.events.filter (·.ticketId = id) = [] :=
    List.filter_eq_nil_iff.mpr fun event hevent => by simpa using h event hevent
  rw [Data.workflowOf, hnone, List.foldl_nil]

theorem workflowOf_congr {d' : Data} (h : d'.events.filter (·.ticketId = id) =
    d.events.filter (·.ticketId = id)) : d'.workflowOf id priority = d.workflowOf id priority := by
  rw [Data.workflowOf, h, Data.workflowOf]

end Records

section Step

variable {s s' : Store} {prunes failed : Prop}

/-- No two tickets have the same id. -/
def Data.UniqueIds (d : Data) : Prop := ∀ a ∈ d.tickets, ∀ b ∈ d.tickets, a.id = b.id → a = b

/-- A new ticket, recorded. -/
theorem Data.InStep.created {d : Data} (hd : d.InStep) {row : TicketRow} {event : EventRow}
    {value : Value} (hrow : row.TakenIn) (hnew : ∀ old ∈ d.tickets, old.id ≠ row.id)
    (hid : event.ticketId = row.id) (hmetadata : event.metadata = [("source", value)])
    (hexpiry : event.expiresAt = none) :
    Data.InStep { d with tickets := d.tickets ++ [row], events := d.events ++ [event] } where
  replays ticket hticket := by
    have happend (priority : String) :=
      workflowOf_append { d with tickets := d.tickets ++ [row] } event ticket.id priority
    rcases List.mem_append.mp hticket with hold | hrow'
    · obtain ⟨priority, hreplay⟩ := hd.replays ticket hold
      refine ⟨priority, (happend priority).trans ?_⟩
      rw [if_neg fun hsame => hnew ticket hold (hsame.symm.trans hid)]
      exact hreplay
    · obtain rfl := List.mem_singleton.mp hrow'
      refine ⟨ticket.priority, (happend _).trans ?_⟩
      have hnone : d.workflowOf ticket.id ticket.priority =
          ⟨.new, ticket.priority, "", none, false⟩ :=
        workflowOf_of_none fun event hevent hsame => by
          obtain ⟨old, hold, hsame', -⟩ := hd.events event hevent
          exact hnew old hold (hsame'.trans hsame)
      rw [if_pos hid, record_of_silent (.inr ⟨value, hmetadata⟩)]
      refine hnone.trans ?_
      rw [TicketRow.workflow, hrow.status, hrow.assigneeId, hrow.duplicateOf, hrow.legalHold]
  events event' hevent := by
    rcases List.mem_append.mp hevent with hold | hevent
    · obtain ⟨ticket, hticket, hfacts⟩ := hd.events event' hold
      exact ⟨ticket, List.mem_append_left _ hticket, hfacts⟩
    · obtain rfl := List.mem_singleton.mp hevent
      exact ⟨row, List.mem_append_right _ List.mem_cons_self, hid.symm,
        hrow.expiresAt.trans hexpiry.symm⟩
  analyses analysis hanalysis := by
    obtain ⟨ticket, hticket, hfacts⟩ := hd.analyses analysis hanalysis
    exact ⟨ticket, List.mem_append_left _ hticket, hfacts⟩

theorem Data.InStep.noted {d : Data} (hd : d.InStep) {ticket : TicketRow} {event : EventRow}
    (hticket : ticket ∈ d.tickets) (hid : event.ticketId = ticket.id)
    (hmetadata : event.metadata = []) (hexpiry : event.expiresAt = ticket.expiresAt) :
    Data.InStep { d with events := d.events ++ [event] } where
  replays ticket' hticket' := by
    obtain ⟨priority, hreplay⟩ := hd.replays ticket' hticket'
    refine ⟨priority, (workflowOf_append d event ticket'.id priority).trans ?_⟩
    rw [record_of_silent (.inl hmetadata), ite_self]
    exact hreplay
  events event' hevent := by
    rcases List.mem_append.mp hevent with hold | hevent
    · exact hd.events event' hold
    · obtain rfl := List.mem_singleton.mp hevent
      exact ⟨ticket, hticket, hid.symm, hexpiry.symm⟩
  analyses := hd.analyses

theorem Data.InStep.analysed {d : Data} (hd : d.InStep) {ticket : TicketRow}
    {analysis : AnalysisRow} (hticket : ticket ∈ d.tickets) (hid : analysis.ticketId = ticket.id)
    (hexpiry : analysis.expiresAt = ticket.expiresAt) :
    Data.InStep { d with analyses := d.analyses ++ [analysis] } where
  replays := hd.replays
  events := hd.events
  analyses analysis' hanalysis := by
    rcases List.mem_append.mp hanalysis with hold | hanalysis
    · exact hd.analyses analysis' hold
    · obtain rfl := List.mem_singleton.mp hanalysis
      exact ⟨ticket, hticket, hid.symm, hexpiry.symm⟩

/-- What is left of a complete timeline when all that has expired is taken out. -/
theorem Data.InStep.pruned {d : Data} (hd : d.InStep) (hunique : d.UniqueIds) (now : Instant) :
    (d.prune now true true true).InStep where
  replays ticket hticket := by
    obtain ⟨hmem, hkept⟩ := List.mem_filter.mp hticket
    obtain ⟨priority, hreplay⟩ := hd.replays ticket hmem
    refine ⟨priority, (workflowOf_congr ?_).trans hreplay⟩
    -- the events of a ticket that is left are left
    show (d.events.filter _).filter _ = _
    rw [List.filter_filter]
    refine List.filter_congr fun event hevent => ?_
    by_cases hid : event.ticketId = ticket.id
    · obtain ⟨ticket', hticket', hid', hexpiry⟩ := hd.events event hevent
      obtain rfl := hunique ticket' hticket' ticket hmem (hid'.trans hid)
      rw [← hexpiry]
      simp only [hid, decide_true, Bool.true_and]
      exact hkept
    · simp [hid]
  events event hevent := by
    obtain ⟨hmem, hkept⟩ := List.mem_filter.mp hevent
    obtain ⟨ticket, hticket, hid, hexpiry⟩ := hd.events event hmem
    exact ⟨ticket, List.mem_filter.mpr ⟨hticket, hexpiry ▸ hkept⟩, hid, hexpiry⟩
  analyses analysis hanalysis := by
    obtain ⟨hmem, hkept⟩ := List.mem_filter.mp hanalysis
    obtain ⟨ticket, hticket, hid, hexpiry⟩ := hd.analyses analysis hmem
    exact ⟨ticket, List.mem_filter.mpr ⟨hticket, hexpiry ▸ hkept⟩, hid, hexpiry⟩

section Change

variable {current : TicketRow} {changes : Changes} {effective : TicketStatus} {hold : Bool}
  {now : Instant} {expiry : Option Instant} {stamp : Instant}

/-- Whatever expired with a ticket still does after a change, if the expiry is passed on where it
may have moved. -/
theorem exists_writeAt {d : Data} (stamp : Instant) (hunique : d.UniqueIds)
    (hmem : current ∈ d.tickets)
    (hexpiry : ExpiryAfter current changes effective hold now expiry) {ticketId : String}
    {expiresAt : Option Instant}
    (h : ∃ ticket ∈ d.tickets, ticket.id = ticketId ∧ ticket.expiresAt = expiresAt) :
    ∃ ticket ∈ d.tickets.map
        (TicketRow.writeAt current.id (changes.columns effective expiry now stamp)),
      ticket.id = ticketId ∧ ticket.expiresAt =
        if changes.lifecycleChanged ∧ ticketId = current.id then expiry else expiresAt := by
  obtain ⟨ticket, hticket, rfl, rfl⟩ := h
  refine ⟨_, List.mem_map_of_mem hticket, ?_⟩
  unfold TicketRow.writeAt
  by_cases hid : ticket.id = current.id
  · obtain rfl := hunique ticket hticket current hmem hid
    rw [if_pos rfl]
    refine ⟨rfl, (TicketRow.expiresAt_write hexpiry).trans ?_⟩
    cases hlifecycle : changes.lifecycleChanged with
    | true => simp
    | false => simpa using hexpiry.same hlifecycle
  · rw [if_neg hid, if_neg fun h => hid h.2]
    exact ⟨rfl, rfl⟩

theorem id_writeAt (id : String) (columns : TicketWrite) (row : TicketRow) :
    (row.writeAt id columns).id = row.id := by
  unfold TicketRow.writeAt
  split <;> rfl

/-- A change that is recorded, its expiry passed on. -/
theorem Data.InStep.change {d : Data} (hd : d.InStep) {event : EventRow} {eventType : String}
    {actorType : ActorType} {actorId reason : String} (hunique : d.UniqueIds)
    (hmem : current ∈ d.tickets)
    (hexpiry : ExpiryAfter current changes effective hold now expiry)
    (htells : event.Says current.id eventType actorType actorId reason changes.metadata expiry) :
    (d.change changes (changes.columns effective expiry now stamp) current.id expiry
      event).InStep := by
  have htickets : (d.change changes (changes.columns effective expiry now stamp) current.id expiry
      event).tickets = d.tickets.map
        (TicketRow.writeAt current.id (changes.columns effective expiry now stamp)) := by
    unfold Data.change
    cases changes.lifecycleChanged <;> rfl
  refine ⟨fun ticket hticket => ?_, fun event' hevent => ?_, fun analysis hanalysis => ?_⟩
  · rw [htickets] at hticket
    obtain ⟨old, hold, rfl⟩ := List.mem_map.mp hticket
    obtain ⟨priority, hreplay⟩ := hd.replays old hold
    refine ⟨priority, (workflowOf_append _ event _ priority).trans ?_⟩
    have hsame : (if changes.lifecycleChanged then Data.expire { d with
        tickets := d.tickets.map (.writeAt current.id (changes.columns effective expiry now stamp))
        } current.id expiry else { d with
        tickets := d.tickets.map (.writeAt current.id (changes.columns effective expiry now stamp))
        }).workflowOf old.id priority = old.workflow := by
      split
      · exact (workflowOf_expire ..).trans hreplay
      · exact hreplay
    rw [id_writeAt, hsame, htells.ticketId, htells.metadata]
    unfold TicketRow.writeAt
    by_cases hid : old.id = current.id
    · rw [if_pos hid.symm, if_pos hid, Workflow.record_changes, TicketRow.workflow_write]
    · rw [if_neg (Ne.symm hid), if_neg hid]
  · rw [htickets]
    rcases List.mem_append.mp hevent with hold | hlast
    · have hwrite {old : EventRow} (hold : old ∈ d.events) :=
        exists_writeAt stamp hunique hmem hexpiry (hd.events old hold)
      cases hlifecycle : changes.lifecycleChanged with
      | true =>
        rw [hlifecycle, if_pos rfl] at hold
        obtain ⟨old, hmem', rfl⟩ := List.mem_map.mp hold
        simpa [hlifecycle, EventRow.expiresAt_expireAt] using hwrite hmem'
      | false =>
        rw [hlifecycle, if_neg Bool.false_ne_true] at hold
        simpa [hlifecycle] using hwrite hold
    · obtain rfl := List.mem_singleton.mp hlast
      refine ⟨_, List.mem_map_of_mem hmem, (id_writeAt ..).trans htells.ticketId.symm, ?_⟩
      rw [htells.expiresAt, TicketRow.writeAt, if_pos rfl]
      exact TicketRow.expiresAt_write hexpiry
  · rw [htickets]
    have hwrite {old : AnalysisRow} (hold : old ∈ d.analyses) :=
      exists_writeAt stamp hunique hmem hexpiry (hd.analyses old hold)
    unfold Data.change at hanalysis
    cases hlifecycle : changes.lifecycleChanged with
    | true =>
      rw [hlifecycle] at hanalysis
      obtain ⟨old, hold, rfl⟩ := List.mem_map.mp hanalysis
      simpa [hlifecycle, AnalysisRow.expiresAt_expireAt, AnalysisRow.ticketId_expireAt] using
        hwrite hold
    | false =>
      rw [hlifecycle] at hanalysis
      simpa [hlifecycle] using hwrite hanalysis

end Change

theorem uniqueIds (s : Store) : s.data.UniqueIds := fun _ ha _ hb hid => eq_of_id ha hb hid

/-- A request keeps the timeline complete, unless it flags a gap or answers a failure although it
has changed something. -/
theorem Ending.inStep (h : Ending s prunes failed s') (hs : s.data.InStep)
    (hflag : s'.data.degraded = false) (hfailed : failed → s'.data = s.data) :
    s'.data.InStep := by
  by_cases hfail : failed
  · exact hfailed hfail ▸ hs
  have hnot : ¬ (s'.data.degraded = true ∨ failed) := fun h => h.elim (by simp [hflag]) hfail
  cases h.effect with
  | kept hdata => exact hdata ▸ hs
  | created row hrow hcontinues hnew htickets htimeline =>
    obtain ⟨event, hid, hmetadata, hexpiry, hdata⟩ := htimeline.resolve_left hnot
    exact hdata ▸ hs.created hrow hnew hid hmetadata hexpiry
  | changed id current changes effective duplicate actorType actorId reason now expiry stamp hmem
      hid hchange hstored =>
    obtain ⟨event, htells, hdata⟩ := hstored.timeline.resolve_left hnot
    subst hid
    exact hdata ▸ hs.change (uniqueIds s) hmem hstored.expires htells
  | noted ticket event hmem hid hmetadata hexpiry hdata =>
    exact hdata ▸ hs.noted hmem hid hmetadata hexpiry
  | analysed ticket analysis hmem hid hexpiry hdata =>
    exact hdata ▸ hs.analysed hmem hid hexpiry
  | pruned hprunes now analyses events tickets hnow hran hdata =>
    obtain ⟨rfl, rfl, rfl⟩ := hran hfail
    exact hdata ▸ hs.pruned (uniqueIds s) now

/-- A pass takes nothing of a ticket that has no expiry, while the timeline is complete. -/
theorem Ending.keepsTimeline (h : Ending s prunes failed s') (hs : s.data.InStep)
    {ticket : TicketRow} (hticket : ticket ∈ s.data.tickets) (hexpiry : ticket.expiresAt = none) :
    (∀ event ∈ s.data.events, event.ticketId = ticket.id →
      event.entry ∈ s'.data.events.map (·.entry)) ∧
    ∀ analysis ∈ s.data.analyses, analysis.ticketId = ticket.id →
      analysis.entry ∈ s'.data.analyses.map (·.entry) := by
  rcases h.effect.continues with hcontinues | ⟨-, now, analyses, events, tickets, hdata⟩
  · exact ⟨fun event hevent _ => hcontinues.events.subset (List.mem_map_of_mem hevent),
      fun analysis hanalysis _ => hcontinues.analyses.subset (List.mem_map_of_mem hanalysis)⟩
  · have hlives {ticketId : String} {expiresAt : Option Instant} (hid : ticketId = ticket.id)
        (hfound : ∃ ticket ∈ s.data.tickets, ticket.id = ticketId ∧ ticket.expiresAt = expiresAt) :
        expiresAt = none := by
      obtain ⟨ticket', hticket', hid', rfl⟩ := hfound
      rw [eq_of_id hticket' hticket (hid'.trans hid)]
      exact hexpiry
    rw [hdata]
    refine ⟨fun event hevent hid => List.mem_map_of_mem (List.mem_filter.mpr ⟨hevent, ?_⟩),
      fun analysis hanalysis hid => List.mem_map_of_mem (List.mem_filter.mpr ⟨hanalysis, ?_⟩)⟩
    · simp [hlives hid (hs.events event hevent), expired]
    · simp [hlives hid (hs.analyses analysis hanalysis), expired]

end Step

section Runs

variable {tools : Tools} {s : Store}

/-- A request that has answered a failure although it had changed rows. -/
def Torn (s : Store) (request : Request tools) (chances : ℕ → Chance) : Prop :=
  failed (s.serve request chances).1 = true ∧ (s.serve request chances).2.data ≠ s.data

/-- The flag is up, or some request of the run was torn. -/
def GapKnown (s : Store) (steps : List (Step tools)) : Prop :=
  (s.run steps).maintenance.auditDegraded = true ∨
    ∃ before request chances after, steps = before ++ .request request chances :: after ∧
      Torn (s.run before) request chances

theorem run_append (s : Store) (before after : List (Step tools)) :
    s.run (before ++ after) = (s.run before).run after := List.foldl_append

/-- A gap that is known stays known. -/
theorem GapKnown.append {steps : List (Step tools)} (h : GapKnown s steps) (step : Step tools) :
    GapKnown s (steps ++ [step]) := by
  rcases h with hflag | ⟨before, request, chances, after, rfl, htorn⟩
  · refine .inl ?_
    rw [run_append]
    cases step with
    | configure types settings => exact hflag
    | request request chances =>
      exact ((s.run steps).ending_serve request chances).effect.degraded hflag
  · exact .inr ⟨before, request, chances, after ++ [step], by simp, htorn⟩

/-- The timeline is complete, or it is known not to be. -/
theorem inStep_or_gapKnown (hs : s.data.InStep) (steps : List (Step tools)) :
    GapKnown s steps ∨ (s.run steps).data.InStep := by
  induction steps using List.reverseRecOn with
  | nil => exact .inr hs
  | append_singleton steps step ih =>
    rcases ih with hgap | hstep
    · exact .inl (hgap.append step)
    · cases step with
      | configure types settings =>
        rw [run_append]
        exact .inr hstep
      | request request chances =>
        by_cases htorn : Torn (s.run steps) request chances
        · exact .inl (.inr ⟨steps, request, chances, [], rfl, htorn⟩)
        by_cases hflag : (s.run (steps ++ [.request request chances])).maintenance.auditDegraded
        · exact .inl (.inl hflag)
        rw [run_append] at hflag ⊢
        refine .inr (((s.run steps).ending_serve request chances).inStep hstep
          (eq_false_of_ne_true hflag) fun hfailed => ?_)
        by_contra hne
        exact htorn ⟨hfailed, hne⟩

end Runs

/-- Whatever is asked of the block, one request after the other, and whichever calls fail: the flag
of the audit is up, or some request has answered a failure although it had changed rows, or the
workflow columns of every ticket are what its events tell, every event and every analysis expires
with its ticket, and the next request takes nothing out of the timeline of a ticket that is open or
held. -/
theorem timeline {tools : Tools} (types : Relational.Table typeSchema)
    (settings : String → Option String) (clock : Instant) (steps : List (Step tools)) :
    GapKnown (Store.fresh types settings clock) steps ∨
    let s := (Store.fresh types settings clock).run steps
    s.data.InStep ∧
    ∀ ticket ∈ s.tickets.rows, (ticket.status.isOpen || ticket.legalHold) = true →
      ∀ (request : Request tools) (chances : ℕ → Chance),
        let s' := s.step (.request request chances)
        (∀ event ∈ s.events.rows, event.ticketId = ticket.id →
          event.entry ∈ s'.events.rows.map (·.entry)) ∧
        ∀ analysis ∈ s.analyses.rows, analysis.ticketId = ticket.id →
          analysis.entry ∈ s'.analyses.rows.map (·.entry) := by
  have hfresh : (Store.fresh types settings clock).data.InStep :=
    ⟨fun _ h => absurd h List.not_mem_nil, fun _ h => absurd h List.not_mem_nil,
      fun _ h => absurd h List.not_mem_nil⟩
  have hcoherent : ((Store.fresh types settings clock).run steps).Coherent :=
    Store.Coherent.run (fun _ hticket => absurd hticket List.not_mem_nil) steps
  refine (inStep_or_gapKnown hfresh steps).imp_right fun hstep => ⟨hstep, ?_⟩
  intro ticket hticket hopen request chances
  exact (Store.ending_serve _ request chances).keepsTimeline hstep hticket
    ((hcoherent ticket hticket).expires.mpr hopen)

end Tickets
