import Impresspress.Tickets.Changes

/-!
# What a request can do

A request runs with nobody else at the tables, and any of its calls may fail. Whatever fails, it
ends in one of a few ways: nothing has changed but the time, or a row was written and the timeline
was kept in step with it, or the timeline was not, and then the flag is up or the request has
answered a failure.

## Main definitions

* `Tickets.Data`: the rows and the flag.
* `Tickets.Effect`: the ways in which a request can end.

## Main results

* `Tickets.Store.effect_serve`: every request ends in one of them.
-/

namespace Tickets

open Concurrent

/-- The rows of tickets, events and analyses, and the flag of the audit. -/
structure Data where
  tickets : List TicketRow
  events : List EventRow
  analyses : List AnalysisRow
  degraded : Bool

namespace Store

def data (s : Store) : Data :=
  ⟨s.tickets.rows, s.events.rows, s.analyses.rows, s.maintenance.auditDegraded⟩

/-- The store at another time. -/
def atTime (s : Store) (t : Instant) : Store := { s with clock := t }

@[simp] theorem data_atTime (s : Store) (t : Instant) : (s.atTime t).data = s.data := rfl

@[simp] theorem clock_atTime (s : Store) (t : Instant) : (s.atTime t).clock = t := rfl

@[simp] theorem tickets_atTime (s : Store) (t : Instant) : (s.atTime t).tickets = s.tickets := rfl

/-- Time has passed, and the rows and the flag are these. -/
def Moves (s s' : Store) (d : Data) : Prop := s.clock ≤ s'.clock ∧ s'.data = d

theorem Moves.refl (s : Store) : s.Moves s s.data := ⟨le_rfl, rfl⟩

theorem Moves.trans {s s' s'' : Store} {d : Data} (h : s.Moves s' s.data)
    (h' : s'.Moves s'' d) : s.Moves s'' d :=
  ⟨h.1.trans h'.1, h'.2⟩

theorem moves_atTime {s : Store} {t : Instant} (h : s.clock ≤ t) : s.Moves (s.atTime t) s.data :=
  ⟨h, rfl⟩

/-- A call that fails changes nothing. -/
theorem answer_error {s s' : Store} {chance : Chance} {c : Call} {e : WaferError}
    (h : s.answer chance c = (.error e, s')) : s' = s := by
  cases c with
  | getType id => exact (Prod.mk.inj h).2.symm
  | getTicket id => exact (Prod.mk.inj h).2.symm
  | createTicket row =>
    simp only [answer] at h
    split at h <;> cases h
    rfl
  | updateTicket id columns =>
    simp only [answer] at h
    split at h <;> cases h
    rfl
  | createEvent row =>
    simp only [answer] at h
    split at h <;> cases h
    rfl
  | createAnalysis row =>
    simp only [answer] at h
    split at h <;> cases h
    rfl
  | _ => cases h

end Store

/-! ### Rules -/

section Rules

variable {α β : Type} {s : Store} {post : Except ServiceError α → Store → Prop}

/-- What holds at the end of every run of the program. -/
@[irreducible]
def Ends (p : Ticketing α) (s : Store) (post : Except ServiceError α → Store → Prop) : Prop :=
  p.run.Ensures perform s post

theorem ends_pure {a : α} (h : post (.ok a) s) : Ends (pure a) s post := by
  unfold Ends
  exact h

theorem ends_throw {e : ServiceError} (h : post (.error e) s) : Ends (throw e) s post := by
  unfold Ends
  exact h

theorem Ends.mono {p : Ticketing α} {post' : Except ServiceError α → Store → Prop}
    (h : Ends p s post) (hpost : ∀ r s', post r s' → post' r s') : Ends p s post' := by
  unfold Ends at h ⊢
  exact Program.Ensures.mono h hpost

/-- What is ensured of every run holds of each one. -/
theorem Ends.run {p : Ticketing α} (h : Ends p s post) (chances : ℕ → Chance) :
    post (p.run.run perform chances s).1 (p.run.run perform chances s).2 := by
  unfold Ends at h
  exact h.run chances

theorem ends_bind {p : Ticketing β} {f : β → Ticketing α}
    {mid : Except ServiceError β → Store → Prop} (hp : Ends p s mid)
    (hok : ∀ b s', mid (.ok b) s' → Ends (f b) s' post)
    (herror : ∀ e s', mid (.error e) s' → post (.error e) s') : Ends (p >>= f) s post := by
  unfold Ends at hp hok ⊢
  exact Program.ensures_bind.mpr (hp.mono fun result s' hmid =>
    match result with
    | .ok b => hok b s' hmid
    | .error e => herror e s' hmid)

/-- A call that fails leaves the store at a later time; otherwise it is answered at one. -/
theorem perform_cases (chance : Chance) (c : Call) (s : Store) :
    ∃ t, s.clock ≤ t ∧ ((∃ e, perform chance c s = (.error e, s.atTime t)) ∨
      ∃ reply s', perform chance c s = (.ok reply, s') ∧
        (s.atTime t).answer chance c = (.ok reply, s')) := by
  refine ⟨s.clock + chance.elapsed, Nat.le_add_right .., ?_⟩
  have hanswer : (∃ e, (s.atTime (s.clock + chance.elapsed)).answer chance c =
      (.error e, s.atTime (s.clock + chance.elapsed))) ∨ ∃ reply s',
      (s.atTime (s.clock + chance.elapsed)).answer chance c = (.ok reply, s') := by
    cases hr : (s.atTime (s.clock + chance.elapsed)).answer chance c with
    | mk r s' =>
      cases r with
      | ok reply => exact .inr ⟨reply, s', rfl⟩
      | error e => exact .inl ⟨e, by rw [Store.answer_error hr]⟩
  unfold perform
  split
  · exact .inl ⟨_, rfl⟩
  · rcases hanswer with ⟨e, he⟩ | ⟨reply, s', hok⟩
    · exact .inl ⟨e, he⟩
    · exact .inr ⟨reply, s', hok, hok⟩

theorem ends_ask {c : Call} {f : Answer c → Ticketing α}
    (hok : ∀ chance t reply s', s.clock ≤ t → (s.atTime t).answer chance c = (.ok reply, s') →
      Ends (f (.ok reply)) s' post)
    (herror : ∀ t e, s.clock ≤ t → Ends (f (.error e)) (s.atTime t) post) :
    Ends (ask c >>= f) s post := by
  unfold Ends at hok herror ⊢
  intro chance
  obtain ⟨t, ht, ⟨e, he⟩ | ⟨reply, s', hperform, hanswer⟩⟩ := perform_cases chance c s
  · rw [he]
    exact herror t e ht
  · rw [hperform]
    exact hok chance t reply s' ht hanswer

theorem ends_asking {c : Call} {f : Reply c → Ticketing α}
    (hok : ∀ chance t reply s', s.clock ≤ t → (s.atTime t).answer chance c = (.ok reply, s') →
      Ends (f reply) s' post)
    (herror : ∀ t e, s.clock ≤ t → post (.error (.db e)) (s.atTime t)) :
    Ends (asking c >>= f) s post := by
  rw [asking, bind_assoc]
  exact ends_ask hok fun t e ht => ends_throw (herror t e ht)

/-- A last call. -/
theorem ends_last {c : Call} {post : Except ServiceError (Reply c) → Store → Prop}
    (hok : ∀ chance t reply s', s.clock ≤ t → (s.atTime t).answer chance c = (.ok reply, s') →
      post (.ok reply) s')
    (herror : ∀ t e, s.clock ≤ t → post (.error (.db e)) (s.atTime t)) :
    Ends (asking c) s post := by
  rw [← bind_pure (asking c)]
  exact ends_asking (fun chance t reply s' ht h => ends_pure (hok chance t reply s' ht h)) herror

theorem ends_utcNow {f : Instant → Ticketing α}
    (hok : ∀ t, s.clock ≤ t → Ends (f t) (s.atTime t) post)
    (herror : ∀ t e, s.clock ≤ t → post (.error (.db e)) (s.atTime t)) :
    Ends (asking .utcNow >>= f) s post := by
  refine ends_asking (fun chance t reply s' ht h => ?_) herror
  cases h
  exact hok t ht

theorem ends_newUuid {f : String → Ticketing α}
    (hok : ∀ t uuid, s.clock ≤ t → Ends (f uuid) (s.atTime t) post)
    (herror : ∀ t e, s.clock ≤ t → post (.error (.db e)) (s.atTime t)) :
    Ends (asking .newUuid >>= f) s post := by
  refine ends_asking (fun chance t reply s' ht h => ?_) herror
  cases h
  exact hok t _ ht

theorem ends_validated {a : Except String β} {f : β → Ticketing α}
    (hok : ∀ b, a = .ok b → Ends (f b) s post)
    (herror : ∀ message, post (.error (.validation message)) s) :
    Ends (validated a >>= f) s post := by
  cases a with
  | ok b => exact hok b rfl
  | error message => exact ends_throw (herror message)

/-- The answer to a search by key. -/
theorem found_eq_ok {row : Option β} {b : β} : found row = .ok b ↔ row = some b := by
  cases row <;> simp [found]

theorem ends_getTicket {id : String} {f : TicketRow → Ticketing α}
    (hok : ∀ t ticket, s.clock ≤ t → ticket ∈ s.tickets.rows → ticket.id = id →
      Ends (f ticket) (s.atTime t) post)
    (herror : ∀ t e, s.clock ≤ t → post (.error (.db e)) (s.atTime t)) :
    Ends (asking (.getTicket id) >>= f) s post := by
  refine ends_asking (fun chance t reply s' ht h => ?_) herror
  obtain ⟨hfound, rfl⟩ := Prod.mk.inj h
  obtain ⟨hmem, hid⟩ := Relational.Table.get?_eq_some_iff.mp (found_eq_ok.mp hfound)
  exact hok t reply ht hmem hid

end Rules

/-! ### The timeline -/

section Timeline

variable {α : Type} {s : Store}

/-- What an event says. -/
structure EventRow.Says (event : EventRow) (ticketId eventType : String) (actorType : ActorType)
    (actorId body : String) (metadata : Metadata) (expiresAt : Option Instant) : Prop where
  ticketId : event.ticketId = ticketId
  eventType : event.eventType = eventType
  actorType : event.actorType = actorType
  actorId : event.actorId = actorId
  body : event.body = body
  metadata : event.metadata = metadata
  expiresAt : event.expiresAt = expiresAt

/-- The answer is a failure, or the flag is up. -/
def Flagged (r : Except ServiceError α) (s : Store) : Prop :=
  s.data.degraded = true ∨ ∃ e, r = .error e

variable {ticketId eventType actorId body : String} {actorType : ActorType} {metadata : Metadata}
  {expiresAt : Option Instant}

theorem ends_appendEvent :
    Ends (appendEvent ticketId eventType actorType actorId body metadata expiresAt) s
      fun r s' => (s.Moves s' s.data ∧ ∀ event, r ≠ .ok (.ok event)) ∨
        ∃ event : EventRow, r = .ok (.ok event) ∧
          event.Says ticketId eventType actorType actorId body metadata expiresAt ∧
          s.Moves s' { s.data with events := s.data.events ++ [event] } := by
  unfold appendEvent
  refine ends_newUuid (fun t uuid ht => ?_) fun t e ht => .inl ⟨Store.moves_atTime ht, nofun⟩
  refine ends_utcNow (fun t' ht' => ?_) fun t' e ht' =>
    .inl ⟨Store.moves_atTime (ht.trans ht'), nofun⟩
  rw [← bind_pure (ask _)]
  refine ends_ask (fun chance t'' reply s' ht'' h => ?_) fun t'' e ht'' => ends_pure
    (.inl ⟨Store.moves_atTime (ht.trans (ht'.trans ht'')), nofun⟩)
  simp only [Store.answer] at h
  split at h
  · rename_i events hinsert
    cases h
    refine ends_pure (.inr ⟨_, rfl, ⟨rfl, rfl, rfl, rfl, rfl, rfl, rfl⟩,
      ht.trans (ht'.trans ht''), ?_⟩)
    simp only [Store.data, (Relational.Table.rows_insert hinsert).1]
    rfl
  · cases h

theorem ends_markAuditDegraded :
    Ends markAuditDegraded s fun r s' => Flagged r s' ∧
      (s.Moves s' { s.data with degraded := true } ∨ s.Moves s' s.data) := by
  refine ends_last (fun chance t reply s' ht h => ?_) fun t e ht =>
    ⟨.inr ⟨_, rfl⟩, .inr (Store.moves_atTime ht)⟩
  cases h
  exact ⟨.inl rfl, .inl ⟨ht, rfl⟩⟩

/-- An event is recorded, or the flag is up, or the answer is a failure. -/
theorem ends_appendEventBestEffort (hvalid : validateMetadata metadata = .ok ()) :
    Ends (appendEventBestEffort ticketId eventType actorType actorId body metadata expiresAt) s
      fun r s' => (∃ event : EventRow,
          event.Says ticketId eventType actorType actorId body metadata expiresAt ∧ r = .ok () ∧
          s.Moves s' { s.data with events := s.data.events ++ [event] }) ∨
        Flagged r s' ∧ (s.Moves s' { s.data with degraded := true } ∨ s.Moves s' s.data) := by
  unfold appendEventBestEffort
  rw [hvalid]
  refine ends_bind ends_appendEvent (fun result s' hmid => ?_) fun e s' hmid => ?_
  · rcases hmid with ⟨hmoves, hnot⟩ | ⟨event, hresult, htells, hmoves⟩
    · cases result with
      | ok event => exact absurd rfl (hnot event)
      | error e =>
        refine ends_markAuditDegraded.mono fun r s'' hmark => .inr ⟨hmark.1, ?_⟩
        rw [hmoves.2] at hmark
        exact hmark.2.imp hmoves.trans hmoves.trans
    · cases hresult
      exact ends_pure (.inl ⟨event, htells, rfl, hmoves⟩)
  · rcases hmid with ⟨hmoves, -⟩ | ⟨event, hresult, -⟩
    · exact .inr ⟨.inr ⟨e, rfl⟩, .inr hmoves⟩
    · cases hresult

/-- The rows of a ticket's timeline with another expiry. -/
def Data.expire (d : Data) (ticketId : String) (expiresAt : Option Instant) : Data :=
  { d with
    events := d.events.map (.expireAt ticketId expiresAt)
    analyses := d.analyses.map (.expireAt ticketId expiresAt) }

/-- An event without its expiry, the only column of it that is written again. -/
def EventRow.entry (event : EventRow) : EventRow := { event with expiresAt := none }

def AnalysisRow.entry (analysis : AnalysisRow) : AnalysisRow := { analysis with expiresAt := none }

@[simp] theorem EventRow.entry_expireAt (event : EventRow) :
    (event.expireAt ticketId expiresAt).entry = event.entry := by
  unfold EventRow.expireAt
  split <;> rfl

@[simp] theorem AnalysisRow.entry_expireAt (analysis : AnalysisRow) :
    (analysis.expireAt ticketId expiresAt).entry = analysis.entry := by
  unfold AnalysisRow.expireAt
  split <;> rfl

/-- Nothing is taken out of the timeline or rewritten in it; a flag that was up is up. -/
structure Data.Continues (d d' : Data) : Prop where
  events : d.events.map (·.entry) <+: d'.events.map (·.entry)
  analyses : d.analyses.map (·.entry) <+: d'.analyses.map (·.entry)
  degraded : d.degraded = true → d'.degraded = true

namespace Data.Continues

theorem refl (d : Data) : d.Continues d := ⟨List.prefix_rfl, List.prefix_rfl, fun h => h⟩

theorem trans {d d' d'' : Data} (h : d.Continues d') (h' : d'.Continues d'') : d.Continues d'' :=
  ⟨h.events.trans h'.events, h.analyses.trans h'.analyses, fun hd => h'.degraded (h.degraded hd)⟩

theorem expireEvents (d : Data) (ticketId : String) (expiresAt : Option Instant) :
    d.Continues { d with events := d.events.map (.expireAt ticketId expiresAt) } := by
  refine ⟨?_, List.prefix_rfl, fun h => h⟩
  simp [Function.comp_def]

theorem expireAnalyses (d : Data) (ticketId : String) (expiresAt : Option Instant) :
    d.Continues { d with analyses := d.analyses.map (.expireAt ticketId expiresAt) } := by
  refine ⟨List.prefix_rfl, ?_, fun h => h⟩
  simp [Function.comp_def]

theorem expire (d : Data) (ticketId : String) (expiresAt : Option Instant) :
    d.Continues (d.expire ticketId expiresAt) :=
  (expireEvents d ticketId expiresAt).trans (expireAnalyses _ ticketId expiresAt)

theorem event (d : Data) (event : EventRow) :
    d.Continues { d with events := d.events ++ [event] } := by
  refine ⟨?_, List.prefix_rfl, fun h => h⟩
  rw [List.map_append]
  exact List.prefix_append ..

theorem analysis (d : Data) (analysis : AnalysisRow) :
    d.Continues { d with analyses := d.analyses ++ [analysis] } := by
  refine ⟨List.prefix_rfl, ?_, fun h => h⟩
  rw [List.map_append]
  exact List.prefix_append ..

end Data.Continues

/-- The tickets are as they were, and the timeline goes on. -/
structure Store.KeepsTickets (s s' : Store) : Prop where
  clock : s.clock ≤ s'.clock
  tickets : s'.data.tickets = s.data.tickets
  continues : s.data.Continues s'.data

theorem Store.KeepsTickets.trans {s s' s'' : Store} (h : s.KeepsTickets s')
    (h' : s'.KeepsTickets s'') : s.KeepsTickets s'' :=
  ⟨h.clock.trans h'.clock, h'.tickets.trans h.tickets, h.continues.trans h'.continues⟩

theorem Store.Moves.keepsTickets {s s' : Store} {d : Data} (h : s.Moves s' d)
    (htickets : d.tickets = s.data.tickets) (hcontinues : s.data.Continues d) :
    s.KeepsTickets s' :=
  ⟨h.1, (congrArg Data.tickets h.2).trans htickets, h.2 ▸ hcontinues⟩

theorem keepsTickets_of_marked {s s' : Store}
    (h : s.Moves s' { s.data with degraded := true } ∨ s.Moves s' s.data) : s.KeepsTickets s' :=
  h.elim (·.keepsTickets rfl ⟨List.prefix_rfl, List.prefix_rfl, fun _ => rfl⟩)
    (·.keepsTickets rfl (.refl _))

/-- A write to the timeline is made, or the flag is up, or the answer is a failure. -/
theorem ends_orDegraded {c : Call} {d : Data}
    (hc : ∀ chance t reply s', (s.atTime t).answer chance c = (.ok reply, s') →
      s'.clock = t ∧ s'.data = d) :
    Ends (orDegraded c) s fun r s' => (r = .ok () ∧ s.Moves s' d) ∨
      Flagged r s' ∧ s.KeepsTickets s' := by
  unfold orDegraded
  refine ends_ask (fun chance t reply s' ht h => ?_) fun t e ht => ?_
  · obtain ⟨hclock, hdata⟩ := hc chance t reply s' h
    exact ends_pure (.inl ⟨rfl, hclock ▸ ht, hdata⟩)
  · refine ends_markAuditDegraded.mono fun r s' hmark => .inr ⟨hmark.1, ?_⟩
    exact ((Store.moves_atTime ht).keepsTickets rfl (.refl _)).trans
      (keepsTickets_of_marked hmark.2)

/-- What is flagged stays so while the flag stays up. -/
theorem Flagged.later {β : Type} {b : β} {r : Except ServiceError α} {s' : Store}
    (h : Flagged (.ok b : Except ServiceError β) s)
    (hdegraded : s.data.degraded = true → s'.data.degraded = true) : Flagged r s' :=
  h.elim (fun h => .inl (hdegraded h)) fun ⟨_, he⟩ => nomatch he

/-- The expiry of a ticket is passed on to its timeline, or that is flagged. -/
theorem ends_propagateExpiry :
    Ends (propagateExpiry ticketId expiresAt) s fun r s' =>
      (r = .ok () ∧ s.Moves s' (s.data.expire ticketId expiresAt)) ∨
        Flagged r s' ∧ s.KeepsTickets s' := by
  have hevents : Ends (orDegraded (.expireEvents ticketId expiresAt)) s fun r s' =>
      (r = .ok () ∧ s.Moves s' { s.data with
        events := s.data.events.map (.expireAt ticketId expiresAt) }) ∨
        Flagged r s' ∧ s.KeepsTickets s' :=
    ends_orDegraded fun chance t reply s' h => by
      cases h
      exact ⟨rfl, rfl⟩
  have hanalyses (s' : Store) :
      Ends (orDegraded (.expireAnalyses ticketId expiresAt)) s' fun r s'' =>
        (r = .ok () ∧ s'.Moves s'' { s'.data with
          analyses := s'.data.analyses.map (.expireAt ticketId expiresAt) }) ∨
          Flagged r s'' ∧ s'.KeepsTickets s'' :=
    ends_orDegraded fun chance t reply s'' h => by
      cases h
      exact ⟨rfl, rfl⟩
  refine ends_bind hevents (fun _ s' hmid => (hanalyses s').mono fun r s'' hend => ?_)
    fun e s' hmid => ?_
  · rcases hmid with ⟨-, hmoves⟩ | ⟨hflagged, hkeeps⟩
    · rcases hend with ⟨hr, hmoves'⟩ | ⟨hflagged, hkeeps⟩
      · refine .inl ⟨hr, hmoves.1.trans hmoves'.1, hmoves'.2.trans ?_⟩
        rw [hmoves.2]
        rfl
      · exact .inr ⟨hflagged, (hmoves.keepsTickets rfl (.expireEvents ..)).trans hkeeps⟩
    · rcases hend with ⟨-, hmoves'⟩ | ⟨hflagged', hkeeps'⟩
      · have hkeeps' : s'.KeepsTickets s'' := hmoves'.keepsTickets rfl (.expireAnalyses ..)
        exact .inr ⟨hflagged.later hkeeps'.continues.degraded, hkeeps.trans hkeeps'⟩
      · exact .inr ⟨hflagged', hkeeps.trans hkeeps'⟩
  · rcases hmid with ⟨hr, -⟩ | ⟨-, hkeeps⟩
    · cases hr
    · exact .inr ⟨.inr ⟨e, rfl⟩, hkeeps⟩

end Timeline

/-! ### Workflow -/

section Workflow

variable {s : Store}

theorem retentionDays_pos (setting : String) (fallback : ℤ) :
    1 ≤ retentionDays setting fallback := by
  have h : 1 ≤ max (1 : ℤ) (min 3650 ((parseI64 setting).getD fallback)) := le_max_left _ _
  unfold retentionDays
  omega

/-- No retention ends within a day. -/
theorem ends_retentionEnd (key : String) (fallback : ℤ) :
    Ends (retentionEnd key fallback) s fun r s' => s.Moves s' s.data ∧
      ∀ e, r = .ok e → s.clock + Instant.days 1 ≤ e := by
  unfold retentionEnd
  refine ends_asking (fun chance t setting s' ht h => ?_) fun t e ht =>
    ⟨Store.moves_atTime ht, nofun⟩
  cases h
  refine ends_utcNow (fun t' ht' => ?_) fun t' e ht' => ⟨Store.moves_atTime (ht.trans ht'), nofun⟩
  refine ends_pure ⟨Store.moves_atTime (ht.trans ht'), fun e he => ?_⟩
  cases he
  have hdays := Nat.mul_le_mul_right 86400000000000
    (retentionDays_pos ((s.settings key).getD (toString fallback)) fallback)
  exact Nat.add_le_add (ht.trans ht') hdays

theorem ends_expiryFor {status : TicketStatus} (hclosed : status.isOpen = false) :
    Ends (expiryFor status) s fun r s' => s.Moves s' s.data ∧
      ∀ e, r = .ok e → s.clock + Instant.days 1 ≤ e := by
  cases status with
  | new => cases hclosed
  | triaged => cases hclosed
  | investigating => cases hclosed
  | resolved => exact ends_retentionEnd _ _
  | rejected => exact ends_retentionEnd _ _
  | spam => exact ends_retentionEnd _ _
  | duplicate => exact ends_retentionEnd _ _

/-- What the expiry of a ticket is after a change that is made at a time. -/
structure ExpiryAfter (current : TicketRow) (changes : Changes) (effective : TicketStatus)
    (hold : Bool) (since : Instant) (expiry : Option Instant) : Prop where
  same : changes.lifecycleChanged = false → expiry = current.expiresAt
  none : changes.lifecycleChanged = true → (effective.isOpen || hold) = true → expiry = .none
  some : changes.lifecycleChanged = true → (effective.isOpen || hold) = false →
    ∃ e, expiry = .some e ∧ since + Instant.days 1 ≤ e

variable {current : TicketRow} {changes : Changes} {effective : TicketStatus} {hold : Bool}

theorem ends_newExpiry :
    Ends (newExpiry current changes effective hold) s fun r s' => s.Moves s' s.data ∧
      ∀ expiry, r = .ok expiry → ExpiryAfter current changes effective hold s.clock expiry := by
  unfold newExpiry
  cases hchanged : changes.lifecycleChanged with
  | false =>
    refine ends_pure ⟨Store.Moves.refl s, fun expiry he => ?_⟩
    cases he
    exact ⟨fun _ => rfl, by simp [hchanged], by simp [hchanged]⟩
  | true =>
    cases hopen : (effective.isOpen || hold) with
    | true =>
      refine ends_pure ⟨Store.Moves.refl s, fun expiry he => ?_⟩
      cases he
      exact ⟨by simp [hchanged], fun _ _ => rfl, by simp [hopen]⟩
    | false =>
      have hclosed : effective.isOpen = false := (Bool.or_eq_false_iff.mp hopen).1
      refine ends_bind (ends_expiryFor hclosed) (fun e s' hmid => ?_) fun e s' hmid =>
        ⟨hmid.1, nofun⟩
      refine ends_pure ⟨hmid.1, fun expiry he => ?_⟩
      cases he
      exact ⟨by simp [hchanged], by simp [hopen], fun _ _ => ⟨e, rfl, hmid.2 e rfl⟩⟩

/-- Nothing but the target is looked up; what passes is what a duplicate has to be. -/
theorem ends_checkDuplicate {id : String} {duplicate : Option String} :
    Ends (checkDuplicate id effective duplicate) s fun r s' => s.Moves s' s.data ∧
      (r = .ok () → (effective = .duplicate → ∃ target, duplicate = some target ∧ target ≠ id) ∧
        (effective ≠ .duplicate → duplicate = none)) := by
  unfold checkDuplicate
  by_cases heffective : effective = .duplicate
  · rw [if_pos heffective]
    cases duplicate with
    | none => exact ends_throw ⟨Store.Moves.refl s, nofun⟩
    | some target =>
      by_cases hid : target = id
      · simp only [if_pos hid]
        exact ends_throw ⟨Store.Moves.refl s, nofun⟩
      · simp only [if_neg hid]
        refine ends_ask (fun chance t reply s' ht h => ?_) fun t e ht => ?_
        · cases (Prod.mk.inj h).2
          exact ends_pure ⟨Store.moves_atTime ht, fun _ =>
            ⟨fun _ => ⟨target, rfl, hid⟩, fun h => absurd heffective h⟩⟩
        · by_cases hcode : e.code = .notFound
          · simp only [if_pos hcode]
            exact ends_throw ⟨Store.moves_atTime ht, nofun⟩
          · simp only [if_neg hcode]
            exact ends_throw ⟨Store.moves_atTime ht, nofun⟩
  · rw [if_neg heffective]
    cases duplicate with
    | none => exact ends_pure ⟨Store.Moves.refl s, fun _ =>
        ⟨fun h => absurd h heffective, fun _ => rfl⟩⟩
    | some target => exact ends_throw ⟨Store.Moves.refl s, nofun⟩

theorem ends_passOn {id : String} {expiry : Option Instant} :
    Ends (passOn changes id expiry) s fun r s' =>
      (r = .ok () ∧ s.Moves s' (if changes.lifecycleChanged then s.data.expire id expiry
        else s.data)) ∨ Flagged r s' ∧ s.KeepsTickets s' := by
  unfold passOn
  cases changes.lifecycleChanged with
  | true => exact ends_propagateExpiry
  | false => exact ends_pure (.inl ⟨rfl, Store.Moves.refl s⟩)

/-- The rows after a change whose timeline was kept in step. -/
def Data.change (d : Data) (changes : Changes) (columns : TicketWrite) (id : String)
    (expiry : Option Instant) (event : EventRow) : Data :=
  let d' := { d with tickets := d.tickets.map (.writeAt id columns) }
  let d'' := if changes.lifecycleChanged then d'.expire id expiry else d'
  { d'' with events := d''.events ++ [event] }

/-- A change that was stored at a time: the row is written, and the change is recorded and its
expiry passed on, or that is flagged. -/
structure StoredAs (s : Store) (id : String) (current : TicketRow) (changes : Changes)
    (effective : TicketStatus) (hold : Bool) (actorType : ActorType) (actorId reason : String)
    (now : Instant) (expiry : Option Instant) (stamp : Instant) (failed : Prop) (s' : Store) :
    Prop where
  since : s.clock ≤ now
  before : now ≤ s'.clock
  expires : ExpiryAfter current changes effective hold now expiry
  tickets : s'.data.tickets =
    s.data.tickets.map (.writeAt id (changes.columns effective expiry now stamp))
  continues : s.data.Continues s'.data
  timeline : (s'.data.degraded = true ∨ failed) ∨ ∃ event : EventRow,
    event.Says id ((changes.status.map (·.asStr)).getD "workflow_updated") actorType actorId reason
      changes.metadata expiry ∧
    s'.data = s.data.change changes (changes.columns effective expiry now stamp) id expiry event

/-- Reading ahead of the change does not matter. -/
theorem StoredAs.earlier {s s₁ s' : Store} {id actorId reason : String} {actorType : ActorType}
    {now : Instant} {expiry : Option Instant} {stamp : Instant} {failed : Prop}
    (h : StoredAs s₁ id current changes effective hold actorType actorId reason now expiry stamp
      failed s') (hmoves : s.Moves s₁ s.data) :
    StoredAs s id current changes effective hold actorType actorId reason now expiry stamp failed
      s' :=
  { since := hmoves.1.trans h.since
    before := h.before
    expires := h.expires
    tickets := h.tickets.trans (by rw [hmoves.2])
    continues := hmoves.2 ▸ h.continues
    timeline := by
      rw [← hmoves.2]
      exact h.timeline }

theorem ends_storeChanges {id actorId reason : String} {actorType : ActorType}
    (hvalid : validateMetadata changes.metadata = .ok ()) :
    Ends (storeChanges id current changes effective hold actorType actorId reason) s fun r s' =>
      ((∃ e, r = .error e) ∧ s.Moves s' s.data) ∨ ∃ now expiry stamp, StoredAs s id current changes
        effective hold actorType actorId reason now expiry stamp (∃ e, r = .error e) s' := by
  unfold storeChanges
  refine ends_utcNow (fun now hnow => ?_) fun t e ht => .inl ⟨⟨_, rfl⟩, Store.moves_atTime ht⟩
  refine ends_bind ends_newExpiry (fun expiry s₁ hexpiry => ?_) fun e s₁ hexpiry =>
    .inl ⟨⟨_, rfl⟩, (Store.moves_atTime hnow).trans hexpiry.1⟩
  have h₁ : s.Moves s₁ s.data := (Store.moves_atTime hnow).trans hexpiry.1
  have hnow₁ : now ≤ s₁.clock := hexpiry.1.1
  refine ends_utcNow (fun stamp hstamp => ?_) fun t e ht =>
    .inl ⟨⟨_, rfl⟩, h₁.1.trans ht, h₁.2⟩
  refine ends_asking (fun chance t updated s₂ ht h => ?_) fun t e ht =>
    .inl ⟨⟨_, rfl⟩, h₁.1.trans (hstamp.trans ht), h₁.2⟩
  obtain ⟨hclock, hdata⟩ : s₂.clock = t ∧ s₂.data = { s.data with
      tickets := s.data.tickets.map
        (.writeAt id (changes.columns effective expiry now stamp)) } := by
    simp only [Store.answer] at h
    split at h
    · cases h
      rw [← h₁.2]
      exact ⟨rfl, rfl⟩
    · cases (Prod.mk.inj h).1
  have hnow₂ : now ≤ s₂.clock := hclock ▸ hnow₁.trans (hstamp.trans ht)
  -- what is left is to say how the timeline fared
  have hend {failed : Prop} {s' : Store} (hkeeps : s₂.KeepsTickets s')
      (htimeline : (s'.data.degraded = true ∨ failed) ∨ ∃ event : EventRow,
        event.Says id ((changes.status.map (·.asStr)).getD "workflow_updated") actorType actorId
          reason changes.metadata expiry ∧
        s'.data = s.data.change changes (changes.columns effective expiry now stamp) id expiry
          event) :
      StoredAs s id current changes effective hold actorType actorId reason now expiry stamp failed
        s' :=
    { since := hnow
      before := hnow₂.trans hkeeps.clock
      expires := hexpiry.2 expiry rfl
      tickets := hkeeps.tickets.trans (by rw [hdata])
      continues := .trans (by rw [hdata]; exact ⟨List.prefix_rfl, List.prefix_rfl, fun h => h⟩)
        hkeeps.continues
      timeline := htimeline }
  refine ends_bind ends_passOn (fun _ s₃ hpassed => ?_) fun e s₃ hpassed => ?_
  · refine ends_bind (ends_appendEventBestEffort hvalid) (fun _ s₄ hrecorded => ends_pure
      (.inr ⟨now, expiry, stamp, ?_⟩)) fun e s₄ hrecorded => .inr ⟨now, expiry, stamp, ?_⟩
    · rcases hpassed with ⟨-, hmoves⟩ | ⟨hflagged, hkeeps⟩
      · have hkeeps : s₂.KeepsTickets s₃ :=
          hmoves.keepsTickets (by split <;> rfl) (by split; exacts [.expire .., .refl _])
        rcases hrecorded with ⟨event, htells, -, hmoves'⟩ | ⟨hflagged, hmarked⟩
        · refine hend (hkeeps.trans (hmoves'.keepsTickets rfl (.event ..)))
            (.inr ⟨event, htells, ?_⟩)
          rw [hmoves'.2, hmoves.2, hdata]
          rfl
        · exact hend (hkeeps.trans (keepsTickets_of_marked hmarked))
            (.inl (hflagged.later fun h => h))
      · rcases hrecorded with ⟨event, htells, -, hmoves'⟩ | ⟨hflagged', hmarked⟩
        · have hkeeps' : s₃.KeepsTickets s₄ := hmoves'.keepsTickets rfl (.event ..)
          exact hend (hkeeps.trans hkeeps') (.inl (hflagged.later hkeeps'.continues.degraded))
        · exact hend (hkeeps.trans (keepsTickets_of_marked hmarked))
            (.inl (hflagged'.later fun h => h))
    · have hkeeps : s₂.KeepsTickets s₃ := hpassed.elim
        (fun h => h.2.keepsTickets (by split <;> rfl) (by split; exacts [.expire .., .refl _]))
        fun h => h.2
      rcases hrecorded with ⟨_, -, hr, -⟩ | ⟨-, hmarked⟩
      · cases hr
      · exact hend (hkeeps.trans (keepsTickets_of_marked hmarked)) (.inl (.inr ⟨e, rfl⟩))
  · rcases hpassed with ⟨hr, -⟩ | ⟨-, hkeeps⟩
    · cases hr
    · exact .inr ⟨now, expiry, stamp, hend hkeeps (.inl (.inr ⟨e, rfl⟩))⟩

/-- What a change is, beside the ticket as it is stored. -/
structure ChangeOf (current : TicketRow) (changes : Changes) (effective : TicketStatus)
    (duplicate : Option String) : Prop where
  settled : effective = changes.status.getD current.status
  moved : ∀ status, changes.status = some status →
    status ≠ current.status ∧ current.status.canTransitionTo status = true
  duplicateOf :
    changes.duplicateOf = if duplicate = current.duplicateTarget then none else some duplicate
  nonempty : duplicate ≠ some ""
  target : effective = .duplicate → ∃ target, duplicate = some target ∧ target ≠ current.id
  noTarget : effective ≠ .duplicate → duplicate = none

end Workflow

/-! ### Requests -/

section Requests

variable {s : Store}

/-- A ticket as it is taken in. -/
structure TicketRow.TakenIn (row : TicketRow) : Prop where
  status : row.status = .new
  assigneeId : row.assigneeId = ""
  duplicateOf : row.duplicateOf = none
  legalHold : row.legalHold = false
  resolvedAt : row.resolvedAt = none
  expiresAt : row.expiresAt = none

/-- The rows after a pass whose steps have run or not. -/
def Data.prune (d : Data) (now : Instant) (analyses events tickets : Bool) : Data :=
  { d with
    analyses := d.analyses.filter fun row => !(analyses && expired now row.expiresAt)
    events := d.events.filter fun row => !(events && expired now row.expiresAt)
    tickets := d.tickets.filter fun row => !(tickets && expired now row.expiresAt) }

/-- The ways in which a request ends. -/
inductive Effect (s : Store) (prunes failed : Prop) (s' : Store) : Prop
  | kept (hdata : s'.data = s.data)
  | created (row : TicketRow) (hrow : row.TakenIn) (hcontinues : s.data.Continues s'.data)
      (hnew : ∀ old ∈ s.data.tickets, old.id ≠ row.id)
      (htickets : s'.data.tickets = s.data.tickets ++ [row])
      (htimeline : (s'.data.degraded = true ∨ failed) ∨ ∃ event : EventRow,
        event.ticketId = row.id ∧ event.metadata = [("source", .str row.source.asStr)] ∧
        event.expiresAt = none ∧
        s'.data = { s.data with
          tickets := s.data.tickets ++ [row]
          events := s.data.events ++ [event] })
  | changed (id : String) (current : TicketRow) (changes : Changes) (effective : TicketStatus)
      (duplicate : Option String) (actorType : ActorType) (actorId reason : String) (now : Instant)
      (expiry : Option Instant) (stamp : Instant) (hmem : current ∈ s.data.tickets)
      (hid : current.id = id) (hchange : ChangeOf current changes effective duplicate)
      (hstored : StoredAs s id current changes effective
        (changes.legalHold.getD current.legalHold) actorType actorId reason now expiry stamp
        failed s')
  | noted (ticket : TicketRow) (event : EventRow) (hmem : ticket ∈ s.data.tickets)
      (hid : event.ticketId = ticket.id) (hmetadata : event.metadata = [])
      (hexpiry : event.expiresAt = ticket.expiresAt)
      (hdata : s'.data = { s.data with events := s.data.events ++ [event] })
  | analysed (ticket : TicketRow) (analysis : AnalysisRow) (hmem : ticket ∈ s.data.tickets)
      (hid : analysis.ticketId = ticket.id) (hexpiry : analysis.expiresAt = ticket.expiresAt)
      (hdata : s'.data = { s.data with analyses := s.data.analyses ++ [analysis] })
  | pruned (hprunes : prunes) (now : Instant) (analyses events tickets : Bool)
      (hnow : now ≤ s'.clock)
      (hfailed : ¬ failed → analyses = true ∧ events = true ∧ tickets = true)
      (hdata : s'.data = s.data.prune now analyses events tickets)

/-- How a request ends: time has passed, in one of the ways. -/
structure Ending (s : Store) (prunes failed : Prop) (s' : Store) : Prop where
  clock : s.clock ≤ s'.clock
  effect : Effect s prunes failed s'

theorem Ending.kept {prunes failed : Prop} {s' : Store} (h : s.Moves s' s.data) :
    Ending s prunes failed s' :=
  ⟨h.1, .kept h.2⟩

/-- Only a pass takes rows out of the timeline. -/
theorem Effect.continues {prunes failed : Prop} {s' : Store} (h : Effect s prunes failed s') :
    s.data.Continues s'.data ∨ prunes ∧ ∃ now analyses events tickets,
      s'.data = s.data.prune now analyses events tickets := by
  cases h with
  | kept hdata => exact .inl (hdata ▸ .refl _)
  | created row hrow hcontinues => exact .inl hcontinues
  | changed id current changes effective duplicate actorType actorId reason now expiry stamp hmem
      hid hchange hstored => exact .inl hstored.continues
  | noted ticket event hmem hid hmetadata hexpiry hdata => exact .inl (hdata ▸ .event ..)
  | analysed ticket analysis hmem hid hexpiry hdata => exact .inl (hdata ▸ .analysis ..)
  | pruned hprunes now analyses events tickets hnow hran hdata =>
    exact .inr ⟨hprunes, now, analyses, events, tickets, hdata⟩

/-- A flag that was up is up. -/
theorem Effect.degraded {prunes failed : Prop} {s' : Store} (h : Effect s prunes failed s')
    (hs : s.data.degraded = true) : s'.data.degraded = true := by
  rcases h.continues with hcontinues | ⟨-, now, analyses, events, tickets, hdata⟩
  · exact hcontinues.degraded hs
  · rw [hdata]
    exact hs

/-- Reading ahead of what a request does not matter. -/
theorem Ending.earlier {prunes failed : Prop} {s₁ s' : Store} (h : Ending s₁ prunes failed s')
    (hmoves : s.Moves s₁ s.data) : Ending s prunes failed s' := by
  refine ⟨hmoves.1.trans h.clock, ?_⟩
  cases h.effect with
  | kept hdata => exact .kept (hdata.trans hmoves.2)
  | created row hrow hcontinues hnew htickets htimeline =>
    rw [hmoves.2] at hcontinues hnew htickets htimeline
    exact .created row hrow hcontinues hnew htickets htimeline
  | changed id current changes effective duplicate actorType actorId reason now expiry stamp hmem
      hid hchange hstored =>
    rw [hmoves.2] at hmem
    exact .changed id current changes effective duplicate actorType actorId reason now expiry stamp
      hmem hid hchange (hstored.earlier hmoves)
  | noted ticket event hmem hid hmetadata hexpiry hdata =>
    rw [hmoves.2] at hmem hdata
    exact .noted ticket event hmem hid hmetadata hexpiry hdata
  | analysed ticket analysis hmem hid hexpiry hdata =>
    rw [hmoves.2] at hmem hdata
    exact .analysed ticket analysis hmem hid hexpiry hdata
  | pruned hprunes now analyses events tickets hnow hfailed hdata =>
    rw [hmoves.2] at hdata
    exact .pruned hprunes now analyses events tickets hnow hfailed hdata

/-- The changes of an accepted request are what `ChangeOf` says. -/
theorem changeOf {id : String} {input : WorkflowUpdate} {current : TicketRow}
    {requested : Option TicketStatus} (haccepted : input.Accepted id current.status requested)
    (hid : current.id = id) :
    let status := requested.filter (· ≠ current.status)
    let effective := status.getD current.status
    let duplicate := effectiveDuplicate current input status
    (effective = .duplicate → ∃ target, duplicate = some target ∧ target ≠ id) ∧
      (effective ≠ .duplicate → duplicate = none) →
    ChangeOf current (.of current input status duplicate) effective duplicate := by
  intro status effective duplicate hchecked
  refine ⟨rfl, fun next hnext => ?_, rfl, ?_, hid ▸ hchecked.1, hchecked.2⟩
  · obtain ⟨hrequested, hne⟩ := Option.filter_eq_some_iff.mp hnext
    exact ⟨of_decide_eq_true hne, haccepted.transition next hrequested⟩
  · show effectiveDuplicate current input status ≠ some ""
    unfold effectiveDuplicate
    split_ifs
    · exact nofun
    · split
      · split_ifs with hempty
        · exact nofun
        · exact fun h => hempty (Option.some.inj h)
      · intro h
        obtain ⟨-, hne⟩ := Option.filter_eq_some_iff.mp h
        exact absurd rfl (of_decide_eq_true hne)

theorem getD_filter_ne {α : Type} [DecidableEq α] (field : Option α) (a : α) :
    (field.filter (· ≠ a)).getD a = field.getD a := by
  cases field with
  | none => rfl
  | some b => by_cases h : b = a <;> simp [Option.filter, h]

/-- The changes of an accepted request are short. -/
theorem changes_short {id : String} {input : WorkflowUpdate} {current : TicketRow}
    {requested : Option TicketStatus} (status : Option TicketStatus)
    (haccepted : input.Accepted id current.status requested) :
    (Changes.of current input status (effectiveDuplicate current input status)).Short := by
  refine ⟨fun priority h => haccepted.priority priority (Option.filter_eq_some_iff.mp h).1,
    fun assignee h => haccepted.assignee assignee (Option.filter_eq_some_iff.mp h).1,
    fun target h => ?_⟩
  simp only [Changes.of] at h
  split_ifs at h with hsame
  have htarget := Option.some.inj h
  unfold effectiveDuplicate at htarget hsame
  split_ifs at htarget
  split at htarget
  · rename_i given hgiven
    split_ifs at htarget
    rw [← Option.some.inj htarget]
    exact (length_trimmed_le given).trans (haccepted.target given hgiven)
  · rename_i hgiven
    simp_all

theorem ends_updateWorkflow {id actorId : String} {input : WorkflowUpdate}
    {actorType : ActorType} :
    Ends (updateWorkflow id input actorType actorId) s fun r s' =>
      Ending s False (∃ e, r = .error e) s' := by
  unfold updateWorkflow
  refine ends_getTicket (fun t current ht hmem hid => ?_) fun t e ht =>
    .kept (Store.moves_atTime ht)
  refine ends_validated (fun requested hrequested => ?_) fun message =>
    .kept (Store.moves_atTime ht)
  have haccepted := WorkflowUpdate.validate_ok hrequested
  dsimp only
  refine ends_bind ends_checkDuplicate (fun _ s₁ hchecked => ?_) fun e s₁ hchecked =>
    .kept ((Store.moves_atTime ht).trans hchecked.1)
  have h₁ : s.Moves s₁ s.data := (Store.moves_atTime ht).trans hchecked.1
  have hchange := changeOf haccepted hid (hchecked.2 rfl)
  have hvalid := validateMetadata_changes
    (changes_short (requested.filter (· ≠ current.status)) haccepted)
  generalize hchanges : Changes.of current input _ _ = changes at hchange hvalid ⊢
  have hhold : input.legalHold.getD current.legalHold =
      changes.legalHold.getD current.legalHold := by
    rw [← hchanges]
    exact (getD_filter_ne input.legalHold current.legalHold).symm
  cases changes.isEmpty with
  | true =>
    simp only [if_true]
    unfold unchanged
    split
    · exact ends_pure (.kept h₁)
    · exact ends_throw (.kept h₁)
  | false =>
    simp only [Bool.false_eq_true, if_false]
    rw [hhold]
    refine (ends_storeChanges hvalid).mono fun r s' hend => ?_
    rcases hend with ⟨-, hmoves⟩ | ⟨now, expiry, stamp, hstored⟩
    · exact .kept (h₁.trans (h₁.2 ▸ hmoves))
    · have hstored := hstored.earlier h₁
      exact ⟨hstored.since.trans hstored.before,
        .changed id current changes _ _ actorType actorId _ now expiry stamp hmem hid hchange
          hstored⟩

theorem ends_existingOr {dedupeHash : Option String} {error : WaferError} :
    Ends (existingOr dedupeHash error) s fun _ s' => s.Moves s' s.data := by
  unfold existingOr
  split
  · exact ends_throw (Store.Moves.refl s)
  · refine ends_asking (fun chance t reply s' ht h => ?_) fun t e ht => Store.moves_atTime ht
    obtain ⟨-, rfl⟩ := Prod.mk.inj h
    cases reply with
    | some existing => exact ends_pure (Store.moves_atTime ht)
    | none => exact ends_throw (Store.moves_atTime ht)

/-- An insert of a ticket: its id is new, and the row is the last. -/
theorem ends_askCreateTicket {α : Type} {row : TicketRow}
    {f : Answer (.createTicket row) → Ticketing α} {post : Except ServiceError α → Store → Prop}
    (hok : ∀ s₁, s.Moves s₁ { s.data with tickets := s.data.tickets ++ [row] } →
      (∀ old ∈ s.data.tickets, old.id ≠ row.id) → Ends (f (.ok row)) s₁ post)
    (herror : ∀ s₁ e, s.Moves s₁ s.data → Ends (f (.error e)) s₁ post) :
    Ends (ask (.createTicket row) >>= f) s post := by
  refine ends_ask (fun chance t reply s₁ ht h => ?_) fun t e ht =>
    herror _ e (Store.moves_atTime ht)
  simp only [Store.answer] at h
  split at h
  · rename_i tickets hinsert
    obtain ⟨hreply, rfl⟩ := Prod.mk.inj h
    obtain ⟨hrows, hfits⟩ := Relational.Table.rows_insert hinsert
    rw [← Except.ok.inj hreply]
    refine hok _ ⟨ht, ?_⟩ fun old hold => (hfits old hold).1
    rw [Store.data, hrows]
    rfl
  · exact nomatch (Prod.mk.inj h).1

theorem validateMetadata_source (source : TicketSource) :
    validateMetadata [("source", .str source.asStr)] = .ok () := by
  cases source <;> decide

/-- A ticket is inserted once at most, and recorded or flagged. -/
theorem ends_insertTicket {row : String → String → TicketRow} {dedupeHash : Option String}
    {actorType : ActorType} {actorId : String} {metadata : Metadata}
    (hrow : ∀ id reference, (row id reference).TakenIn)
    (hmetadata : ∀ id reference, [("source", .str (row id reference).source.asStr)] = metadata)
    (hvalid : validateMetadata metadata = .ok ()) (attempts : ℕ) :
    Ends (insertTicket row dedupeHash (fun id => appendEventBestEffort id "created" actorType
      actorId "" metadata none) attempts) s fun r s' => Ending s False (∃ e, r = .error e) s' := by
  induction attempts generalizing s with
  | zero => exact ends_throw (.kept (Store.Moves.refl s))
  | succ attempts ih =>
    unfold insertTicket
    refine ends_asking (fun chance t random s₁ ht h => ?_) fun t e ht =>
      .kept (Store.moves_atTime ht)
    obtain ⟨-, rfl⟩ := Prod.mk.inj h
    refine ends_newUuid (fun t' id ht' => ?_) fun t' e ht' =>
      .kept (Store.moves_atTime (ht.trans ht'))
    have hlater : s.Moves ((s.atTime t).atTime t') s.data := Store.moves_atTime (ht.trans ht')
    have htaken := hrow id ("TKT-" ++ random)
    have hsource := hmetadata id ("TKT-" ++ random)
    generalize row id ("TKT-" ++ random) = ticket at htaken hsource ⊢
    refine ends_askCreateTicket (fun s₁ hmoves hnew => ?_) fun s₁ e hmoves => ?_
    · have hmoves : s.Moves s₁ { s.data with tickets := s.data.tickets ++ [ticket] } :=
        hlater.trans hmoves
      have hcontinues : s.data.Continues s₁.data :=
        hmoves.2 ▸ ⟨List.prefix_rfl, List.prefix_rfl, fun h => h⟩
      dsimp only
      refine ends_bind (ends_appendEventBestEffort hvalid) (fun _ s₂ hrecorded => ends_pure ?_)
        fun e s₂ hrecorded => ?_
      · have hkeeps : s₁.KeepsTickets s₂ := hrecorded.elim
          (fun ⟨_, _, _, h⟩ => h.keepsTickets rfl (.event ..)) fun h => keepsTickets_of_marked h.2
        refine ⟨hmoves.1.trans hkeeps.clock, ?_⟩
        refine .created ticket htaken (hcontinues.trans hkeeps.continues) hnew
          (hkeeps.tickets.trans (by rw [hmoves.2])) ?_
        rcases hrecorded with ⟨event, htells, -, hrecorded⟩ | ⟨hflagged, -⟩
        · refine .inr ⟨event, htells.ticketId, htells.metadata.trans hsource.symm, htells.expiresAt,
            ?_⟩
          rw [hrecorded.2, hmoves.2]
        · exact .inl (hflagged.later fun h => h)
      · have hkeeps : s₁.KeepsTickets s₂ := hrecorded.elim
          (fun ⟨_, _, hr, _⟩ => nomatch hr) fun h => keepsTickets_of_marked h.2
        refine ⟨hmoves.1.trans hkeeps.clock, ?_⟩
        exact .created ticket htaken (hcontinues.trans hkeeps.continues) hnew
          (hkeeps.tickets.trans (by rw [hmoves.2])) (.inl (.inr ⟨e, rfl⟩))
    · have hkept : s.Moves s₁ s.data := hlater.trans hmoves
      dsimp only
      split
      · exact ih.mono fun r s' hend => hend.earlier hkept
      · exact ends_existingOr.mono fun r s' hend => .kept (hkept.trans (hkept.2 ▸ hend))

theorem ends_createTicket {tools : Tools} {input : CreateTicketInput} {source : TicketSource}
    {actorType : ActorType} {actorId : String} {dedupeHash : Option String} :
    Ends (createTicket tools input source actorType actorId dedupeHash) s fun r s' =>
      Ending s False (∃ e, r = .error e) s' := by
  unfold createTicket
  refine ends_validated (fun _ _ => ?_) fun message => .kept (Store.Moves.refl s)
  refine ends_validated (fun _ _ => ?_) fun message => .kept (Store.Moves.refl s)
  refine ends_validated (fun input _ => ?_) fun message => .kept (Store.Moves.refl s)
  refine ends_asking (fun chance t ticketType s₁ ht h => ?_) fun t e ht =>
    .kept (Store.moves_atTime ht)
  obtain ⟨-, rfl⟩ := Prod.mk.inj h
  refine ends_validated (fun _ _ => ?_) fun message => .kept (Store.moves_atTime ht)
  have hfind : Ends (findByDedupe dedupeHash) (s.atTime t) fun _ s' => s.Moves s' s.data := by
    unfold findByDedupe
    split
    · exact ends_pure (Store.moves_atTime ht)
    · refine ends_last (fun chance t' reply s' ht' h => ?_) fun t' e ht' =>
        Store.moves_atTime (ht.trans ht')
      obtain ⟨-, rfl⟩ := Prod.mk.inj h
      exact Store.moves_atTime (ht.trans ht')
  refine ends_bind hfind (fun existing s₁ hmoves => ?_) fun e s₁ hmoves => .kept hmoves
  cases existing with
  | some existing => exact ends_pure (.kept hmoves)
  | none =>
    refine ends_utcNow (fun now hnow => ?_) fun t e ht => .kept ⟨hmoves.1.trans ht, hmoves.2⟩
    refine Ends.mono (ends_insertTicket ?_ ?_ ?_ 3) fun r s' hend => ?_
    · exact fun id reference => ⟨rfl, rfl, rfl, rfl, rfl, rfl⟩
    · exact fun id reference => rfl
    · exact validateMetadata_source source
    · exact hend.earlier ⟨hmoves.1.trans hnow, hmoves.2⟩

theorem ends_addNote {id note actorId : String} {actorType : ActorType} :
    Ends (addNote id note actorType actorId) s fun r s' =>
      Ending s False (∃ e, r = .error e) s' := by
  unfold addNote
  refine ends_validated (fun _ _ => ?_) fun message => .kept (Store.Moves.refl s)
  refine ends_getTicket (fun t ticket ht hmem hid => ?_) fun t e ht =>
    .kept (Store.moves_atTime ht)
  refine ends_bind ends_appendEvent (fun result s₁ hend => ?_) fun e s₁ hend => ?_
  · rcases hend with ⟨hmoves, hnot⟩ | ⟨event, hresult, htells, hmoves⟩
    · cases result with
      | ok event => exact absurd rfl (hnot event)
      | error e => exact ends_throw (.kept ((Store.moves_atTime ht).trans hmoves))
    · cases hresult
      exact ends_pure ⟨ht.trans hmoves.1,
        .noted ticket event hmem (htells.ticketId.trans hid.symm) htells.metadata htells.expiresAt
          hmoves.2⟩
  · rcases hend with ⟨hmoves, -⟩ | ⟨event, hresult, -⟩
    · exact .kept ((Store.moves_atTime ht).trans hmoves)
    · cases hresult

/-- An insert of an analysis: the row is the last. -/
theorem ends_createAnalysis {row : AnalysisRow}
    {post : Except ServiceError AnalysisRow → Store → Prop}
    (hok : ∀ s₁, s.Moves s₁ { s.data with analyses := s.data.analyses ++ [row] } →
      post (.ok row) s₁)
    (herror : ∀ s₁ e, s.Moves s₁ s.data → post (.error (.db e)) s₁) :
    Ends (asking (.createAnalysis row)) s post := by
  refine ends_last (fun chance t reply s₁ ht h => ?_) fun t e ht =>
    herror _ e (Store.moves_atTime ht)
  simp only [Store.answer] at h
  split at h
  · rename_i analyses hinsert
    obtain ⟨hreply, rfl⟩ := Prod.mk.inj h
    rw [← Except.ok.inj hreply]
    refine hok _ ⟨ht, ?_⟩
    rw [Store.data, (Relational.Table.rows_insert hinsert).1]
    rfl
  · exact nomatch (Prod.mk.inj h).1

theorem ends_addAnalysis {tools : Tools} {id : String} {input : AnalysisInput tools} :
    Ends (addAnalysis id input) s fun r s' => Ending s False (∃ e, r = .error e) s' := by
  unfold addAnalysis
  refine ends_validated (fun _ _ => ?_) fun message => .kept (Store.Moves.refl s)
  refine ends_getTicket (fun t ticket ht hmem hid => ?_) fun t e ht =>
    .kept (Store.moves_atTime ht)
  have hsuggested : Ends (checkSuggested input.suggestedTypeId) (s.atTime t) fun _ s' =>
      s.Moves s' s.data := by
    unfold checkSuggested
    split
    · exact ends_pure (Store.moves_atTime ht)
    · refine ends_asking (fun chance t' suggested s' ht' h => ?_) fun t' e ht' =>
        Store.moves_atTime (ht.trans ht')
      obtain ⟨-, rfl⟩ := Prod.mk.inj h
      cases check suggested.active "suggested ticket type is inactive" with
      | ok _ => exact ends_pure (Store.moves_atTime (ht.trans ht'))
      | error message => exact ends_throw (Store.moves_atTime (ht.trans ht'))
  refine ends_bind hsuggested (fun _ s₁ hmoves => ?_) fun e s₁ hmoves => .kept hmoves
  refine ends_newUuid (fun t₁ rowId ht₁ => ?_) fun t₁ e ht₁ =>
    .kept ⟨hmoves.1.trans ht₁, hmoves.2⟩
  refine ends_utcNow (fun t₂ ht₂ => ?_) fun t₂ e ht₂ =>
    .kept ⟨hmoves.1.trans (ht₁.trans ht₂), hmoves.2⟩
  have hlater : s.Moves ((s₁.atTime t₁).atTime t₂) s.data :=
    ⟨hmoves.1.trans (ht₁.trans ht₂), hmoves.2⟩
  refine ends_createAnalysis (fun s₂ hmoves' => ?_) fun s₂ e hmoves' => .kept (hlater.trans ?_)
  · refine ⟨hlater.1.trans hmoves'.1, .analysed ticket _ hmem ?_ ?_
      (hmoves'.2.trans (by rw [hlater.2]))⟩
    · exact hid.symm
    · rfl
  · rw [← hlater.2]
    exact hmoves'

/-- A call as the whole program. -/
theorem ends_ask_last {c : Call} {post : Except ServiceError (Answer c) → Store → Prop}
    (hok : ∀ chance t reply s', s.clock ≤ t → (s.atTime t).answer chance c = (.ok reply, s') →
      post (.ok (.ok reply)) s')
    (herror : ∀ t e, s.clock ≤ t → post (.ok (.error e)) (s.atTime t)) : Ends (ask c) s post := by
  rw [← bind_pure (ask c)]
  exact ends_ask (fun chance t reply s' ht h => ends_pure (hok chance t reply s' ht h))
    fun t e ht => ends_pure (herror t e ht)

/-- One step of a pass has run, or it is named; `d` says what the rows are in either case. -/
theorem ends_pruneTable {label : String} {delete : Ticketing (Except WaferError ℕ)}
    {d : Bool → Data} (hfalse : d false = s.data)
    (hdelete : Ends delete s fun r s' => (∃ deleted, r = .ok (.ok deleted) ∧ s.Moves s' (d true)) ∨
      ∃ e, r = .ok (.error e) ∧ s.Moves s' s.data) :
    Ends (pruneTable label delete) s fun r s' => ∃ deleted errors ran, r = .ok (deleted, errors) ∧
      (errors = [] → ran = true) ∧ s.Moves s' (d ran) := by
  unfold pruneTable
  refine ends_bind hdelete (fun result s' hend => ?_) fun e s' hend => ?_
  · rcases hend with ⟨deleted, hresult, hmoves⟩ | ⟨e, hresult, hmoves⟩
    · cases hresult
      exact ends_pure ⟨deleted, [], true, rfl, fun _ => rfl, hmoves⟩
    · cases hresult
      exact ends_pure ⟨0, [label], false, rfl, nofun, hfalse ▸ hmoves⟩
  · rcases hend with ⟨deleted, hresult, -⟩ | ⟨e, hresult, -⟩
    · cases hresult
    · cases hresult

theorem Data.prune_false (d : Data) (now : Instant) : d.prune now false false false = d := by
  simp [prune]

theorem Data.prune_prune (d : Data) (now : Instant) (a b c a' b' c' : Bool) :
    (d.prune now a b c).prune now a' b' c' = d.prune now (a || a') (b || b') (c || c') := by
  simp only [prune, List.filter_filter, Data.mk.injEq]
  refine ⟨?_, ?_, ?_, trivial⟩
  · exact List.filter_congr fun row _ => by cases c <;> cases c' <;> simp
  · exact List.filter_congr fun row _ => by cases b <;> cases b' <;> simp
  · exact List.filter_congr fun row _ => by cases a <;> cases a' <;> simp

variable {now : Instant} {label : String}

theorem ends_pruneAnalyses :
    Ends (pruneTable label (ask (.deleteAnalyses now))) s fun r s' => ∃ deleted errors ran,
      r = .ok (deleted, errors) ∧ (errors = [] → ran = true) ∧
        s.Moves s' (s.data.prune now ran false false) := by
  refine ends_pruneTable (d := fun ran => s.data.prune now ran false false) (Data.prune_false _ _)
    (ends_ask_last (fun chance t reply s' ht h => ?_) fun t e ht =>
      .inr ⟨e, rfl, Store.moves_atTime ht⟩)
  cases h
  refine .inl ⟨_, rfl, ht, ?_⟩
  simp [Store.data, Store.atTime, Data.prune, Relational.Table.deleteWhere]

theorem ends_pruneEvents :
    Ends (pruneTable label (ask (.deleteEvents now))) s fun r s' => ∃ deleted errors ran,
      r = .ok (deleted, errors) ∧ (errors = [] → ran = true) ∧
        s.Moves s' (s.data.prune now false ran false) := by
  refine ends_pruneTable (d := fun ran => s.data.prune now false ran false) (Data.prune_false _ _)
    (ends_ask_last (fun chance t reply s' ht h => ?_) fun t e ht =>
      .inr ⟨e, rfl, Store.moves_atTime ht⟩)
  cases h
  refine .inl ⟨_, rfl, ht, ?_⟩
  simp [Store.data, Store.atTime, Data.prune, Relational.Table.deleteWhere]

theorem ends_pruneTickets :
    Ends (pruneTable label (ask (.deleteTickets now))) s fun r s' => ∃ deleted errors ran,
      r = .ok (deleted, errors) ∧ (errors = [] → ran = true) ∧
        s.Moves s' (s.data.prune now false false ran) := by
  refine ends_pruneTable (d := fun ran => s.data.prune now false false ran) (Data.prune_false _ _)
    (ends_ask_last (fun chance t reply s' ht h => ?_) fun t e ht =>
      .inr ⟨e, rfl, Store.moves_atTime ht⟩)
  cases h
  refine .inl ⟨_, rfl, ht, ?_⟩
  simp [Store.data, Store.atTime, Data.prune, Relational.Table.deleteWhere]

/-- The counters of the rate limiter are no rows of the block. -/
theorem ends_pruneRateCounters {cutoff : Instant} :
    Ends (pruneTable label (ask (.deleteRateCounters cutoff))) s fun r s' => ∃ deleted errors,
      r = .ok (deleted, errors) ∧ s.Moves s' s.data := by
  refine (ends_pruneTable (d := fun _ => s.data) rfl
    (ends_ask_last (fun chance t reply s' ht h => ?_) fun t e ht =>
      .inr ⟨e, rfl, Store.moves_atTime ht⟩)).mono
    fun r s' ⟨deleted, errors, _, hr, _, hmoves⟩ => ⟨deleted, errors, hr, hmoves⟩
  cases h
  exact .inl ⟨_, rfl, ht, rfl⟩

/-- A pass runs its steps, and it is complete only if all of them have run. -/
theorem ends_prune :
    Ends (prune now) s fun r s' => s.clock ≤ s'.clock ∧ ∃ analyses events tickets,
      s'.data = s.data.prune now analyses events tickets ∧
        ∀ result, r = .ok result → result.complete = true →
          analyses = true ∧ events = true ∧ tickets = true := by
  unfold prune
  refine ends_bind ends_pruneAnalyses (fun analyses s₁ h₁ => ?_) fun e s₁ h₁ => ?_
  swap
  · obtain ⟨_, _, _, hr, -⟩ := h₁
    cases hr
  obtain ⟨_, errors₁, ran₁, hr₁, hran₁, hmoves₁⟩ := h₁
  refine ends_bind ends_pruneEvents (fun events s₂ h₂ => ?_) fun e s₂ h₂ => ?_
  swap
  · obtain ⟨_, _, _, hr, -⟩ := h₂
    cases hr
  obtain ⟨_, errors₂, ran₂, hr₂, hran₂, hmoves₂⟩ := h₂
  refine ends_bind ends_pruneTickets (fun tickets s₃ h₃ => ?_) fun e s₃ h₃ => ?_
  swap
  · obtain ⟨_, _, _, hr, -⟩ := h₃
    cases hr
  obtain ⟨_, errors₃, ran₃, hr₃, hran₃, hmoves₃⟩ := h₃
  refine ends_bind ends_pruneRateCounters (fun counters s₄ h₄ => ?_) fun e s₄ h₄ => ?_
  swap
  · obtain ⟨_, _, hr, -⟩ := h₄
    cases hr
  obtain ⟨_, errors₄, hr₄, hmoves₄⟩ := h₄
  cases hr₁
  cases hr₂
  cases hr₃
  cases hr₄
  have hclock : s.clock ≤ s₄.clock :=
    hmoves₁.1.trans (hmoves₂.1.trans (hmoves₃.1.trans hmoves₄.1))
  have hdata : s₄.data = s.data.prune now ran₁ ran₂ ran₃ := by
    rw [hmoves₄.2, hmoves₃.2, hmoves₂.2, hmoves₁.2, Data.prune_prune, Data.prune_prune]
    simp
  refine ends_utcNow (fun prunedAt hat => ?_) fun t e ht =>
    ⟨hclock.trans ht, ran₁, ran₂, ran₃, hdata, nofun⟩
  refine ends_ask (fun chance t reply s' ht h => ends_pure ?_) fun t e ht => ends_pure ?_
  · obtain ⟨-, rfl⟩ := Prod.mk.inj h
    refine ⟨hclock.trans (hat.trans ht), ran₁, ran₂, ran₃, hdata, fun result hresult hall => ?_⟩
    rw [← Except.ok.inj hresult] at hall
    simp only [List.isEmpty_iff, List.append_eq_nil_iff] at hall
    exact ⟨hran₁ hall.1.1.1, hran₂ hall.1.1.2, hran₃ hall.1.2⟩
  · refine ⟨hclock.trans (hat.trans ht), ran₁, ran₂, ran₃, hdata, fun result hresult hall => ?_⟩
    rw [← Except.ok.inj hresult] at hall
    exact absurd hall Bool.false_ne_true

/-- A request that has answered a failure; a pass that is incomplete answers one. -/
def failed : Except ServiceError Response → Bool
  | .error _ => true
  | .ok (.pruned result) => !result.complete
  | .ok _ => false

/-- A program whose answer is made a response. -/
theorem ends_respond {α : Type} {p : Ticketing α} {f : α → Response}
    (hf : ∀ a, failed (.ok (f a)) = false)
    (hp : Ends p s fun r s' => Ending s False (∃ e, r = .error e) s') :
    Ends (f <$> p) s fun r s' => Ending s False (failed r = true) s' := by
  rw [map_eq_pure_bind]
  refine ends_bind hp (fun a s' hend => ends_pure ?_) fun e s' hend => ?_
  · have hfailed : (∃ e, Except.ok (ε := ServiceError) a = .error e) ↔
        failed (.ok (f a)) = true := by
      rw [hf a]
      exact ⟨fun ⟨_, he⟩ => (nomatch he), nofun⟩
    exact propext hfailed ▸ hend
  · have hfailed : (∃ e', Except.error (α := α) e = .error e') ↔ failed (.error e) = true :=
      ⟨fun _ => rfl, fun _ => ⟨e, rfl⟩⟩
    exact propext hfailed ▸ hend

/-- A request for a pass. -/
def Request.IsPrune {tools : Tools} : Request tools → Prop
  | .prune => True
  | _ => False

/-- Every request ends in one of the ways, whatever its calls meet. -/
theorem Store.ending_serve {tools : Tools} (s : Store) (request : Request tools)
    (chances : ℕ → Chance) :
    Ending s request.IsPrune (failed (s.serve request chances).1 = true)
      (s.serve request chances).2 := by
  suffices h : Ends request.handle s fun r s' => Ending s request.IsPrune (failed r = true) s' from
    h.run chances
  cases request with
  | create input source actorType actorId dedupeHash =>
    exact ends_respond (fun _ => rfl) ends_createTicket
  | update id input actorType actorId => exact ends_respond (fun _ => rfl) ends_updateWorkflow
  | note id text actorType actorId => exact ends_respond (fun _ => rfl) ends_addNote
  | analyse id input => exact ends_respond (fun _ => rfl) ends_addAnalysis
  | prune =>
    refine ends_utcNow (fun now hnow => ?_) fun t e ht => .kept (Store.moves_atTime ht)
    rw [map_eq_pure_bind]
    refine ends_bind ends_prune (fun result s' hend => ends_pure ?_) fun e s' hend => ?_
    · obtain ⟨hclock, analyses, events, tickets, hdata, hall⟩ := hend
      refine ⟨hnow.trans hclock, .pruned trivial now analyses events tickets hclock
        (fun hfailed => hall result rfl ?_) hdata⟩
      simpa [failed] using hfailed
    · obtain ⟨hclock, analyses, events, tickets, hdata, -⟩ := hend
      exact ⟨hnow.trans hclock, .pruned trivial now analyses events tickets hclock
        (fun hfailed => absurd rfl hfailed) hdata⟩

end Requests

end Tickets
