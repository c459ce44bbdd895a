import Impresspress.Dev.Serving

/-!
# Commits that are finished

## Main results

* `Dev.maintain_leads`: a maintenance pass keeps what is known of the serving generation.
* `Dev.activateStaged_leads`: an activation that ends leaves ledger and journal in agreement.
* `Dev.request_leads`: a request takes the queue and releases it in agreement.
-/

namespace Dev

open Concurrent Concurrent.Contract Concurrent.Fallible
open LedgerAssertion
open Relational (Table)

variable {alone : Bool} {settled : Prop} {mine : Lock → Bool} {P : LedgerAssertion}

/-! ## Maintenance -/

section Maintenance

/-- The listed rows are there, and retention does not keep them. -/
def Prunable (page : List GenerationRow) (s : DevStore) : Prop :=
  ∀ row ∈ page, ∃ row', s.generations.get? row.id = some row' ∧
    row'.status.survivesRetention = false

theorem stable_prunable (hmine : alone = false → mine .maintenance = true)
    (page : List GenerationRow) : (serving alone settled).Stable mine (Prunable page) := by
  intro s s' hs hat row hrow
  have hrely : if alone = true then s' = s else Undisturbed mine s s' := hat.rely
  split at hrely
  · rw [hrely]
    exact hs row hrow
  · rename_i halone
    obtain ⟨row', hget, hsettled⟩ := hs row hrow
    exact hrely.settled (hmine (by simpa using halone)) row.id row' hget hsettled

theorem prunable_listPrunable (ledger : Generations) (boundary : GenerationRow) :
    ∀ row ∈ ledger.listPrunable boundary, ∃ row', ledger.get? row.id = some row' ∧
      row'.status.survivesRetention = false := fun row hrow =>
  ⟨row, get?_of_mem (mem_listPrunable hrow).1, (mem_listPrunable hrow).2.1⟩

/-- The deletion of rows that were listed as prunable. -/
theorem deleteMany_leads {page : List GenerationRow}
    (hmine : alone = false → mine .maintenance = true) (hP : P.Thinnable)
    (hstable : (serving alone settled).Stable mine P.On) :
    (serving alone settled).Leads mine (fun s => P.On s ∧ Prunable page s)
      (call (.deleteMany (page.map (·.id)))) (fun _ => P.On) fun _ => P.On := by
  refine leads_call (fun _ => rfl) (hstable.and (stable_prunable hmine page)) (fun _ => hstable)
    (fun _ => hstable) fun s hknown => ?_
  have hprunable : ∀ id ∈ page.map (·.id), ∀ row, s.generations.get? id = some row →
      row.status.survivesRetention = false := by
    intro id hid row hrow
    obtain ⟨listed, hlisted, rfl⟩ := List.mem_map.mp hid
    obtain ⟨row', hrow', hsettled⟩ := hknown.assertion.2 listed hlisted
    rw [hrow] at hrow'
    cases hrow'
    exact hsettled
  refine ⟨⟨fun l hneeds => ?_, nofun, hprunable⟩, fun chance _ _ => ?_⟩
  · rcases hneeds.2 with ⟨-, h⟩ | ⟨rfl, -⟩
    · cases h
    · exact hmine hneeds.1
  have hheld : (perform chance (.deleteMany (page.map (·.id))) s).2.held = s.held :=
    held_perform_of_none rfl _ _
  cases hanswer : (perform chance (.deleteMany (page.map (·.id))) s).1 with
  | error e =>
    obtain ⟨hgenerations, hjournal⟩ := ledger_of_error hanswer
    refine ⟨keeps_of_ledger hknown.keeps hgenerations hjournal hheld, ?_⟩
    change P _ _
    rw [hgenerations, hjournal]
    exact hknown.assertion.1
  | ok reply =>
    have hperform := answer_of_perform (Prod.ext hanswer rfl)
    have hs' : { s.after chance.elapsed with
        generations := s.generations.deleteMany (page.map (·.id)) } =
        (perform chance (.deleteMany (page.map (·.id))) s).2 := (Prod.ext_iff.mp hperform).2
    have hthinned := thinned_deleteMany hprunable
    refine ⟨⟨?_, fun halone hsettled hfree => ?_⟩, ?_⟩
    · rw [← hs']
      exact hknown.keeps.1.thinned hthinned
    · rw [hheld] at hfree
      have hserving : Agrees _ _ := hknown.keeps.2 halone hsettled hfree
      rw [← hs']
      exact hserving.thinned hthinned
    · rw [← hs']
      exact hP _ _ _ hthinned hknown.assertion.1

theorem pruneBelow_leads (hmine : alone = false → mine .maintenance = true) (hP : P.Thinnable)
    (hstable : (serving alone settled).Stable mine P.On) (boundary : GenerationRow) (turns : ℕ)
    (pruned : List GenerationRow) :
    (serving alone settled).Leads mine P.On (pruneBelow boundary turns pruned) (fun _ => P.On)
      fun _ => P.On := by
  induction turns generalizing pruned with
  | zero => exact leads_pure hstable fun _ hs => hs
  | succ turns ih =>
    refine Leads.bind (M := fun page s => P.On s ∧ Prunable page s) (fun _ => hstable) ?_
      fun page => ?_
    · refine leads_call (fun _ => rfl) hstable (fun page => hstable.and (stable_prunable hmine page))
        (fun _ => hstable) fun s hknown => ?_
      obtain ⟨howned, hrest⟩ := calls_quiet (c := .listPrunable boundary) rfl rfl s hknown
      refine ⟨howned, fun chance hadmits hfree => ?_⟩
      obtain ⟨hkeeps, hs', -⟩ := hrest chance hadmits hfree
      refine ⟨hkeeps, ?_⟩
      cases hanswer : (perform chance (.listPrunable boundary) s).1 with
      | error e => exact hs'
      | ok page =>
        refine ⟨hs', ?_⟩
        have hperform := answer_of_perform (Prod.ext hanswer rfl)
        have hpage : s.generations.listPrunable boundary = page :=
          Except.ok.inj (Prod.ext_iff.mp hperform).1
        unfold Prunable
        rw [(ledger_of_perform rfl chance s).1, ← hpage]
        exact prunable_listPrunable _ _
    · split
      · exact leads_pure hstable fun _ hs => hs.1
      · exact (deleteMany_leads hmine hP hstable).bind (fun _ => hstable) fun _ => ih _

theorem prune_leads (hmine : alone = false → mine .maintenance = true) (hP : P.Thinnable)
    (hstable : (serving alone settled).Stable mine P.On) (turns : ℕ) :
    (serving alone settled).Leads mine P.On (prune turns) (fun _ => P.On) fun _ => P.On := by
  refine (leads_look rfl rfl hstable).bind (fun _ => hstable) fun newest => ?_
  split
  · exact leads_pure hstable fun _ hs => hs
  · exact pruneBelow_leads hmine hP hstable _ _ _

/-- A lock that is not the queue's is taken and released. -/
theorem holding_leads {α : Type} {lock : Lock} {p : Task α} {M : α → LedgerAssertion}
    {F : LedgerAssertion} (hlock : lock ≠ .activation) (hfree : mine lock = false)
    (hP : (serving alone settled).Stable mine P.On)
    (hM : ∀ mine' : Lock → Bool, mine' .activation = mine .activation →
      (∀ a, (serving alone settled).Stable mine' (M a).On) ∧
        (serving alone settled).Stable mine' F.On)
    (hp : (serving alone settled).Leads (Function.update mine lock true) P.On p
      (fun a => (M a).On) fun _ => F.On) :
    (serving alone settled).Leads mine P.On (holding lock p) (fun a => (M a).On)
      fun _ => F.On := by
  have hunlock : ∀ R : LedgerAssertion, (serving alone settled).Calls
      (Function.update mine lock true) R.On (.unlock lock) fun _ => R.On := by
    intro R s hknown
    refine ⟨⟨fun l h => ?_, fun _ l h => ?_, ?_⟩, fun chance _ _ => ⟨⟨hknown.keeps.1, ?_⟩,
      hknown.assertion⟩⟩
    · rcases h.2 with ⟨-, h⟩ | ⟨-, h⟩ <;> cases h
    · cases h
      exact Function.update_self ..
    · cases lock <;> first | exact absurd rfl hlock | trivial
    · intro halone hsettled hheld
      refine hknown.keeps.2 halone hsettled ?_
      have hkept : (perform chance (.unlock lock) s).2.held .activation = s.held .activation :=
        if_neg hlock.symm
      rwa [hkept] at hheld
  obtain ⟨hout, herror⟩ := hM mine rfl
  obtain ⟨hin, herror'⟩ := hM (Function.update mine lock true) (Function.update_of_ne hlock.symm ..)
  refine (sandboxLocks_stands _).leads_holding hfree hP hout (fun _ => herror) hin (fun _ => herror') (R := P.On) ?_ hp
    (fun _ => hunlock _) fun _ => hunlock _
  intro s hknown
  refine ⟨⟨fun l h => ?_, fun _ l h => ?_, trivial⟩, fun chance _ _ => ⟨⟨hknown.keeps.1, ?_⟩,
    hknown.assertion⟩⟩
  · rcases h.2 with ⟨-, h⟩ | ⟨-, h⟩ <;> cases h
  · cases h
  · intro halone hsettled hheld
    refine hknown.keeps.2 halone hsettled ?_
    have hkept : (perform chance (.lock lock) s).2.held .activation = s.held .activation :=
      if_neg hlock.symm
    rwa [hkept] at hheld

theorem DevCall.quiet_of_collects (c : DevCall) (h : c.collects = true) :
    c.writesLedger = false ∧ c.lockEffect = none := by
  cases c <;> first | exact ⟨rfl, rfl⟩ | cases h

/-- What a program knows whatever locks, the queue's apart, it takes besides. -/
def Steady (alone : Bool) (settled : Prop) (mine : Lock → Bool) (P : LedgerAssertion) : Prop :=
  ∀ mine' : Lock → Bool, mine' .activation = mine .activation →
    (serving alone settled).Stable mine' P.On

theorem Steady.update (h : Steady alone settled mine P) {lock : Lock} (hlock : lock ≠ .activation) :
    Steady alone settled (Function.update mine lock true) P := by
  intro mine' hmine'
  refine h mine' (hmine'.trans (Function.update_of_ne hlock.symm ..))

theorem collect_leads (hsteady : Steady alone settled mine P)
    (hfree : mine .workspaceManifest = false) :
    (serving alone settled).Leads mine P.On collect (fun _ => P.On) fun _ => P.On := by
  have hlock : Lock.workspaceManifest ≠ .activation := by decide
  have hstable := hsteady mine rfl
  have hstable' := hsteady.update hlock _ rfl
  refine (leads_look rfl rfl hstable).bind (fun _ => hstable) fun settledRows => ?_
  refine (leads_look rfl rfl hstable).bind (fun _ => hstable) fun objects => ?_
  refine (holding_leads (M := fun _ => P) hlock hfree hstable
    (fun mine' hmine' => ⟨fun _ => hsteady mine' hmine', hsteady mine' hmine'⟩)
    (leads_quiet hstable' collectUnderLock_only DevCall.quiet_of_collects)).bind
    (fun _ => hstable) fun live => ?_
  refine (leads_forM hstable (fun _ => hstable) fun sha _ => leads_quiet hstable
    (collectArtifact_only live sha) DevCall.quiet_of_collects).bind (fun _ => hstable) fun _ => ?_
  exact leads_forM hstable (fun _ => hstable) fun row _ => leads_look rfl rfl hstable

/-- A maintenance pass keeps what is known of the ledger and the journal, and does not fail. -/
theorem maintain_leads (hsteady : Steady alone settled mine P) (hP : P.Thinnable)
    (hfree : mine .workspaceManifest = false) (hfree' : mine .maintenance = false) (turns : ℕ) :
    (serving alone settled).Leads mine P.On (maintain turns) (fun _ => P.On) fun _ => P.On := by
  have hlock : Lock.maintenance ≠ .activation := by decide
  have hsteady' := hsteady.update hlock
  have hstable := hsteady' _ rfl
  refine holding_leads (M := fun _ => P) hlock hfree' (hsteady mine rfl)
    (fun mine' hmine' => ⟨fun _ => hsteady mine' hmine', hsteady mine' hmine'⟩) ?_
  refine (prune_leads (fun _ => Function.update_self ..) hP hstable turns).attempt
    (fun pruned => ?_) fun e => leads_pure hstable fun _ hs => hs
  refine (collect_leads hsteady' ?_).attempt (fun _ => leads_pure hstable fun _ hs => hs)
    fun _ => leads_pure hstable fun _ hs => hs
  exact (Function.update_of_ne (by decide) ..).trans hfree

end Maintenance

/-! ## The activation of a staged generation -/

section Activation

variable {staged : Staged} {state : RuntimeState} {K K' : GenerationStatus → Prop}

/-- The staged generation succeeds the one that the journal names. -/
structure Staged.Succeeds (staged : Staged) (state : RuntimeState) : Prop where
  previous : state.activeGenerationId = staged.previous.map (·.1.id)
  fresh : state.activeGenerationId ≠ some staged.row.id

/-- Its row is there with a status of `K`, and no other row is active but the one it succeeds. -/
structure Aligned (staged : Staged) (state : RuntimeState) (K : GenerationStatus → Prop)
    (ledger : Generations) (journal : RuntimeState) : Prop where
  active : journal.activeGenerationId = state.activeGenerationId
  row : ∃ row, ledger.get? staged.row.id = some row ∧ row.manifest = some staged.manifest ∧
    K row.status
  others : ∀ id, ledger.statusOf id = some .active →
    id = staged.row.id ∨ state.activeGenerationId = some id

/-- The journal desires it as well. -/
structure Aimed (staged : Staged) (state : RuntimeState) (K : GenerationStatus → Prop)
    (ledger : Generations) (journal : RuntimeState) : Prop where
  aligned : Aligned staged state K ledger journal
  desired : journal.desiredGenerationId = some staged.row.id

theorem thinnable_aligned (hK : ∀ status, K status → status.survivesRetention = true) :
    Thinnable (Aligned staged state K) := by
  rintro ledger ledger' journal hthinned ⟨hactive, ⟨row, hrow, hmanifest, hstatus⟩, hothers⟩
  exact ⟨hactive, ⟨row, hthinned.kept _ row hrow (hK _ hstatus), hmanifest, hstatus⟩,
    fun id hid => hothers id ((hthinned.statusOf_active id).mp hid)⟩

theorem thinnable_aimed (hK : ∀ status, K status → status.survivesRetention = true) :
    Thinnable (Aimed staged state K) :=
  fun _ _ _ hthinned h => ⟨thinnable_aligned hK _ _ _ hthinned h.aligned, h.desired⟩

/-- A stop at this point leaves a commit that can be finished. -/
theorem Aimed.recoverable {ledger : Generations} {journal : RuntimeState}
    (h : Aimed staged state K ledger journal)
    (hK : ∀ status, K status → status.survivesRetention = true)
    (hsucceeds : staged.Succeeds state)
    (hreadable : ∀ id row, ledger.get? id = some row → row.manifest ≠ none) :
    Recoverable ledger journal where
  readable := hreadable
  apart := fun id hid => by
    rw [h.desired] at hid
    cases hid
    rw [h.aligned.active]
    exact hsucceeds.fresh
  state := by
    obtain ⟨row, hrow, -, hstatus⟩ := h.aligned.row
    refine .inr ⟨_, row, h.desired, hrow, hK _ hstatus, fun other hother => ?_⟩
    rw [h.aligned.active]
    exact h.aligned.others other hother

/-- The status of its row changes. -/
theorem Aligned.setStatus {ledger ledger' : Generations} {journal : RuntimeState}
    {status : GenerationStatus} (h : Aligned staged state K ledger journal)
    (hset : ledger.setStatus staged.row.id status = some ledger') (hstatus : K' status) :
    Aligned staged state K' ledger' journal where
  active := h.active
  row := by
    obtain ⟨row, hrow, hmanifest, -⟩ := h.row
    refine ⟨{ row with status }, ?_, hmanifest, hstatus⟩
    rw [get?_setStatus hset, if_pos rfl, hrow]
    rfl
  others := fun id hid => by
    rw [statusOf_setStatus hset] at hid
    split at hid
    · rename_i hrow
      exact .inl hrow
    · exact h.others id hid

/-- A row in flight is not active, so the ledger agrees with the journal as it did before. -/
theorem Agrees.setStatus {ledger ledger' : Generations} {journal : RuntimeState} {id : ℕ}
    {status : GenerationStatus} (h : Agrees ledger journal)
    (hset : ledger.setStatus id status = some ledger')
    (hactive : journal.activeGenerationId ≠ some id) (hstatus : status ≠ .active) :
    Agrees ledger' journal := by
  intro other
  rw [h other, statusOf_setStatus hset]
  split
  · rename_i hid
    subst hid
    refine iff_of_false (fun hother => hactive ((h other).mpr hother)) fun hsame => hstatus ?_
    exact Option.some.inj hsame
  · rfl

theorem agrees_congr {ledger : Generations} {journal journal' : RuntimeState}
    (h : journal'.activeGenerationId = journal.activeGenerationId) (hagrees : Agrees ledger journal) :
    Agrees ledger journal' := by
  intro id
  rw [h]
  exact hagrees id

theorem survives_of_isInFlight (status : GenerationStatus) (h : status.isInFlight = true) :
    status.survivesRetention = true := by
  cases status <;> first | rfl | cases h

variable (hmine : alone = false → mine .activation = true) (hsucceeds : staged.Succeeds state)

/-- The row is in flight and the journal desires it. -/
abbrev InFlight (staged : Staged) (state : RuntimeState) : LedgerAssertion :=
  Aimed staged state fun status => status.isInFlight = true

include hmine in
theorem stable_inFlight : (serving alone settled).Stable mine (InFlight staged state).On :=
  stable_on hmine (thinnable_aimed survives_of_isInFlight)

include hmine hsucceeds in
/-- A phase is journalled. -/
theorem journal_leads (phase : ActivationPhase) :
    (serving alone settled).Leads mine (InFlight staged state).On
      (journal state staged.row.id phase) (fun _ => (InFlight staged state).On)
      fun _ => ((InFlight staged state).and Agrees).On := by
  refine leads_writeState hmine (stable_inFlight hmine) (stable_inFlight hmine)
    fun ledger journal hrecoverable h => ?_
  have haimed : InFlight staged state ledger
      { state with desiredGenerationId := some staged.row.id, activationPhase := phase } :=
    ⟨⟨rfl, h.aligned.row, h.aligned.others⟩, rfl⟩
  exact ⟨haimed.recoverable survives_of_isInFlight hsucceeds hrecoverable.readable, haimed⟩

include hmine hsucceeds in
/-- The row is given another status in flight. -/
theorem setInFlight_leads (hstable : (serving alone settled).Stable mine (On (Aimed staged state K)))
    (hK : alone = false → ∀ status, K status → status.survivesRetention = true)
    {status : GenerationStatus} (hstatus : status.isInFlight = true) :
    (serving alone settled).Leads mine (On (Aimed staged state K))
      (call (.setStatus staged.row.id status)) (fun _ => (InFlight staged state).On)
      fun _ => On Agrees := by
  refine (leads_setStatus hmine hstable (stable_inFlight hmine) (fun ledger journal h halone _ => ?_)
    fun ledger ledger' journal hrecoverable h hset => ?_).mono (fun _ h => h) (fun _ _ h => h)
    fun _ _ h => h.2 (by rintro rfl; cases hstatus)
  · intro row hrow
    obtain ⟨row', hrow', -, hstatus'⟩ := h.aligned.row
    rw [hrow] at hrow'
    cases hrow'
    exact hK halone _ hstatus'
  · have haimed : InFlight staged state ledger' journal :=
      ⟨h.aligned.setStatus hset hstatus, h.desired⟩
    exact ⟨haimed.recoverable survives_of_isInFlight hsucceeds
      (readable_setStatus hrecoverable.readable hset), haimed⟩

include hmine hsucceeds in
/-- The activation is abandoned in agreement. -/
theorem refuse_leads {α : Type} (error : ActivationError) (Q' : α → DevStore → Prop) :
    (serving alone settled).Leads mine ((InFlight staged state).and Agrees).On
      (refuse staged.row.id state error : Task α) Q' fun _ => On Agrees := by
  have hagrees : (serving alone settled).Stable mine (On Agrees) := stable_on hmine thinnable_agrees
  have hactive : Thinnable fun ledger journal =>
      Agrees ledger journal ∧ journal.activeGenerationId = state.activeGenerationId :=
    fun _ _ _ hthinned h => ⟨h.1.thinned hthinned, h.2⟩
  refine Leads.bind (M := fun _ => On Agrees) (fun _ => hagrees) ?_
    fun _ => leads_throw hagrees fun _ h => h
  refine Leads.bind (M := fun _ => On fun ledger journal =>
    Agrees ledger journal ∧ journal.activeGenerationId = state.activeGenerationId)
    (fun _ => hagrees) ?_ fun _ => ?_
  · refine (leads_setStatus hmine ((stable_inFlight hmine).and hagrees) (stable_on hmine hactive)
      (fun _ _ _ _ h => by cases h) fun ledger ledger' journal hrecoverable h hset => ?_).mono
      (fun _ h => h) (fun _ _ h => h) fun _ _ h => h.1.2
    have hne : journal.activeGenerationId ≠ some staged.row.id := by
      rw [h.1.aligned.active]
      exact hsucceeds.fresh
    have hagrees' := h.2.setStatus hset hne (by decide)
    exact ⟨⟨readable_setStatus hrecoverable.readable hset, hrecoverable.apart, .inl hagrees'⟩,
      hagrees', h.1.aligned.active⟩
  · refine (leads_writeState hmine (stable_on hmine hactive) hagrees
      fun ledger journal hrecoverable h => ?_).mono (fun _ h => h) (fun _ _ h => h)
      fun _ _ h => h.2
    have hagrees' : Agrees ledger
        { state with desiredGenerationId := none, activationPhase := .idle } :=
      agrees_congr h.2.symm h.1
    exact ⟨⟨hrecoverable.readable, nofun, .inl hagrees'⟩, hagrees'⟩

include hmine in
/-- Blobs are found missing in agreement only. -/
theorem missingBlobs_leads (hP : (serving alone settled).Stable mine P.On)
    (present shas : List Sha) :
    (serving alone settled).Leads mine P.On (missingBlobs present shas)
      (fun missing s => P.On s ∧ (missing ≠ [] → On Agrees s)) fun _ => On Agrees := by
  have hagrees : (serving alone settled).Stable mine (On Agrees) := stable_on hmine thinnable_agrees
  have hmissing : ∀ missing : List Missing, (serving alone settled).Stable mine
      fun s => P.On s ∧ (missing ≠ [] → On Agrees s) := fun missing s s' hs hat =>
    ⟨hP s s' hs.1 hat, fun hne => hagrees s s' (hs.2 hne) hat⟩
  induction shas generalizing P with
  | nil => exact leads_pure (hmissing []) fun _ hs => ⟨hs, fun h => absurd rfl h⟩
  | cons sha shas ih =>
    unfold missingBlobs
    split
    · exact ih hP hmissing
    · refine ((leads_advance hmine hP rfl rfl rfl).mono (fun _ h => h) (fun _ _ h => h)
        fun _ _ h => h.2).bind (fun _ => hagrees) fun stored => ?_
      have hstored : (serving alone settled).Stable mine (P.and fun ledger journal =>
          Agrees ledger journal ∨ Found (.blobExists sha) stored ledger journal).On :=
        hP.and (stable_on hmine (thinnable_found _ stored))
      refine (ih hstored fun missing s s' hs hat =>
        ⟨hstored s s' hs.1 hat, fun hne => hagrees s s' (hs.2 hne) hat⟩).bind
        (fun _ => hagrees) fun missing => ?_
      refine leads_pure (hmissing _) fun s hs => ⟨hs.1.1, fun hne => ?_⟩
      cases stored with
      | true => exact hs.2 hne
      | false => exact hs.1.2.resolve_right Bool.false_ne_true

include hmine in
/-- Content is found missing in agreement only. -/
theorem missingContent_leads (site : Option SiteManifest) :
    (serving alone settled).Leads mine (InFlight staged state).On
      (missingContent staged.manifest site)
      (fun missing s => (InFlight staged state).On s ∧ (missing ≠ [] → On Agrees s))
      fun _ => On Agrees := by
  have hagrees : (serving alone settled).Stable mine (On Agrees) := stable_on hmine thinnable_agrees
  have hflight : (serving alone settled).Stable mine (InFlight staged state).On :=
    stable_inFlight hmine
  have hmissing : ∀ missing : List Missing, (serving alone settled).Stable mine
      fun s => (InFlight staged state).On s ∧ (missing ≠ [] → On Agrees s) :=
    fun missing s s' hs hat => ⟨hflight s s' hs.1 hat, fun hne => hagrees s s' (hs.2 hne) hat⟩
  refine (missingBlobs_leads hmine hflight _ _).bind (fun _ => hagrees) fun missing => ?_
  split
  · exact leads_pure (hmissing missing) fun _ hs => hs
  · have hlisted : Thinnable ((InFlight staged state).and fun ledger journal =>
        missing ≠ [] → Agrees ledger journal) :=
      (thinnable_aimed survives_of_isInFlight).and fun _ _ _ hthinned h hne =>
        (h hne).thinned hthinned
    refine ((leads_advance hmine (stable_on hmine hlisted) rfl rfl rfl).mono (fun _ h => h)
      (fun _ _ h => h) fun _ _ h => h.2).bind (fun _ => hagrees) fun stored => ?_
    refine leads_pure (hmissing _) fun s hs => ⟨hs.1.1, fun hne => ?_⟩
    rcases hs.2 with hserving | hfound
    · exact hserving
    · obtain ⟨row, hrow, hmanifest, -⟩ := hs.1.1.aligned.row
      refine hs.1.2 fun hnone => hne ?_
      rw [hnone, hfound _ row _ hs.1.1.desired hrow hmanifest]
      rfl

include hmine hsucceeds in
theorem validate_leads (site : Option SiteManifest)
    (hstable : (serving alone settled).Stable mine (On (Aligned staged state K)))
    (hK : alone = false → ∀ status, K status → status.survivesRetention = true) :
    (serving alone settled).Leads mine
      (fun s => On (Aligned staged state K) s ∧
        (On Agrees s ∨ s.journal.desiredGenerationId = some staged.row.id))
      (staged.validate state site) (fun _ => (InFlight staged state).On) fun _ => On Agrees := by
  have hagrees : (serving alone settled).Stable mine (On Agrees) := stable_on hmine thinnable_agrees
  have hwaiting : Thinnable fun ledger journal => Agrees ledger journal ∨
      journal.desiredGenerationId = some staged.row.id :=
    fun _ _ _ hthinned h => h.imp_left fun hagrees => hagrees.thinned hthinned
  have hdesired : Thinnable fun _ journal => journal.desiredGenerationId = some staged.row.id :=
    fun _ _ _ _ h => h
  have haimed : (serving alone settled).Stable mine (On (Aimed staged state K)) :=
    fun s s' hs hat => ⟨hstable s s' hs.aligned hat, stable_on hmine hdesired s s' hs.desired hat⟩
  refine Leads.bind (M := fun _ => On (Aimed staged state K)) (fun _ => hagrees) ?_ fun _ => ?_
  · refine (leads_writeState
      (P := LedgerAssertion.and (Aligned staged state K) fun ledger journal =>
        Agrees ledger journal ∨ journal.desiredGenerationId = some staged.row.id) hmine
      (hstable.and (stable_on hmine hwaiting)) haimed
      fun ledger journal hrecoverable h => ?_).mono (fun _ h => h) (fun _ _ h => h)
      fun _ _ h => h.2
    refine ⟨⟨hrecoverable.readable, fun id hid => ?_, ?_⟩, ⟨rfl, h.1.row, h.1.others⟩, rfl⟩
    · cases hid
      exact hsucceeds.fresh
    · rcases hrecoverable.state with hagrees' | ⟨id, row, hid, hrow, hsurvives, hothers⟩
      · exact .inl (agrees_congr h.1.active.symm hagrees')
      · rcases h.2 with hagrees' | hid'
        · exact .inl (agrees_congr h.1.active.symm hagrees')
        · rw [hid] at hid'
          cases hid'
          exact .inr ⟨_, row, rfl, hrow, hsurvives, h.1.others⟩
  refine (setInFlight_leads hmine hsucceeds haimed hK rfl).bind (fun _ => hagrees) fun _ => ?_
  refine (missingContent_leads hmine site).bind (fun _ => hagrees) fun missing => ?_
  have hflight : (serving alone settled).Stable mine (InFlight staged state).On :=
    stable_inFlight hmine
  split
  · exact leads_pure hflight fun _ hs => hs.1
  · rename_i hne
    exact (refuse_leads hmine hsucceeds _ _).mono (fun s hs => ⟨hs.1, hs.2 hne⟩) (fun _ _ h => h)
      fun _ _ h => h

include hmine hsucceeds in
theorem buildRuntime_leads :
    (serving alone settled).Leads mine (InFlight staged state).On (staged.buildRuntime state)
      (fun _ => (InFlight staged state).On) fun _ => On Agrees := by
  have hagrees : (serving alone settled).Stable mine (On Agrees) := stable_on hmine thinnable_agrees
  have hflight : (serving alone settled).Stable mine (InFlight staged state).On :=
    stable_inFlight hmine
  unfold Staged.buildRuntime
  split
  · refine ((journal_leads hmine hsucceeds _).mono (fun _ h => h) (fun _ _ h => h)
      fun _ _ h => h.2).bind (fun _ => hagrees) fun _ => ?_
    exact (leads_advance hmine hflight rfl rfl rfl).attempt
      (fun _ => leads_pure hflight fun _ hs => hs.1) fun e => refuse_leads hmine hsucceeds e _
  · exact leads_pure hflight fun _ hs => hs

theorem DevCall.advances_of_publishes (c : DevCall) (h : c.publishes = true) :
    c.writesLedger = false ∧ c.lockEffect = none ∧ c.advances = true := by
  cases c <;> first | exact ⟨rfl, rfl, rfl⟩ | cases h

theorem write_prompt (path : Path) (file : Published) :
    Prompt (fun c => c.publishes = true) (write path file).run := by
  cases file with
  | site entry => exact prompt_bind (prompt_call rfl) fun _ => prompt_call rfl
  | sandbox sha256 => exact prompt_bind (prompt_pure _) fun _ => prompt_call rfl

theorem publishSite_prompt (prev : Option SiteManifest) (next : SiteManifest) :
    Prompt (fun c => c.publishes = true) (publishSite prev next).run := by
  refine prompt_bind (prompt_call rfl) fun recorded => ?_
  have hremove : ∀ path, Prompt (fun c => c.publishes = true) (remove path).run := fun path =>
    prompt_bind (prompt_call rfl) fun _ => prompt_pure _
  refine prompt_bind (prompt_forM fun path _ => hremove path) fun _ => ?_
  refine prompt_bind (prompt_forM fun file _ => write_prompt _ _) fun _ => ?_
  refine prompt_bind (prompt_forM fun path _ => hremove path) fun _ => ?_
  refine prompt_bind (prompt_forM fun file _ => write_prompt _ _) fun _ => ?_
  dsimp only
  split
  · exact prompt_bind (prompt_call rfl) fun _ => prompt_pure _
  · exact prompt_pure _

include hmine in
/-- A publish changes nothing of the ledger and the journal, and fails in agreement only. -/
theorem publishSite_leads (hP : (serving alone settled).Stable mine P.On)
    (prev : Option SiteManifest) (next : SiteManifest) :
    (serving alone settled).Leads mine P.On (publishSite prev next) (fun _ => P.On)
      fun _ => (P.and Agrees).On :=
  leads_advancing hmine hP (publishSite_prompt prev next) DevCall.advances_of_publishes

include hmine in
theorem restore_leads (hP : (serving alone settled).Stable mine P.On)
    (attempted : GenerationManifest) (previous : Option LoadedGeneration) (rebuilt : Bool) :
    (serving alone settled).Leads mine P.On (restore attempted previous rebuilt) (fun _ => P.On)
      fun _ => P.On := by
  refine Leads.bind (M := fun _ => P.On) (fun _ => hP) ?_ fun _ => ?_
  · unfold restoreRuntime
    split
    · exact (leads_look rfl rfl hP).attempt (fun _ => leads_pure hP fun _ hs => hs)
        fun _ => leads_pure hP fun _ hs => hs
    · exact leads_pure hP fun _ hs => hs
  · exact (publishSite_leads hmine hP _ _).attempt (fun _ => leads_pure hP fun _ hs => hs)
      fun _ => leads_pure hP fun _ hs => hs.1

include hmine hsucceeds in
theorem publish_leads :
    (serving alone settled).Leads mine (InFlight staged state).On (staged.publish state)
      (fun _ => (InFlight staged state).On) fun _ => On Agrees := by
  have hagrees : (serving alone settled).Stable mine (On Agrees) := stable_on hmine thinnable_agrees
  have hflight : (serving alone settled).Stable mine (InFlight staged state).On :=
    stable_inFlight hmine
  refine ((journal_leads hmine hsucceeds _).mono (fun _ h => h) (fun _ _ h => h)
    fun _ _ h => h.2).bind (fun _ => hagrees) fun _ => ?_
  refine (publishSite_leads hmine hflight _ _).attempt
    (fun _ => leads_pure hflight fun _ hs => hs) fun e => ?_
  refine ((restore_leads hmine (hflight.and hagrees) _ _ _).mono (fun _ h => h) (fun _ _ h => h)
    fun _ _ h => h.2).bind (fun _ => hagrees) fun _ => ?_
  exact refuse_leads hmine hsucceeds e _

/-- The new row is active, and the journal does not name it yet. -/
abbrev Committing (staged : Staged) (state : RuntimeState) : LedgerAssertion :=
  Aimed staged state fun status => status = .active

/-- So it is, and no other row is active any more. -/
def Superseding (staged : Staged) (state : RuntimeState) : LedgerAssertion :=
  (Committing staged state).and fun ledger _ =>
    ∀ id, ledger.statusOf id = some .active → id = staged.row.id

include hmine hsucceeds in
/-- The commit: what fails of it fails before the first of its writes. -/
theorem commit_leads :
    (serving alone settled).Leads mine (InFlight staged state).On (staged.commit state)
      (fun _ => On Agrees) fun _ => On Agrees := by
  have hagrees : (serving alone settled).Stable mine (On Agrees) := stable_on hmine thinnable_agrees
  have hflight : (serving alone settled).Stable mine (InFlight staged state).On :=
    stable_inFlight hmine
  have hactive : ∀ status : GenerationStatus, status = .active →
      status.survivesRetention = true := by
    rintro _ rfl
    rfl
  have hcommitting : Thinnable (Committing staged state) := thinnable_aimed hactive
  have hsuperseding : Thinnable (Superseding staged state) :=
    hcommitting.and fun _ _ _ hthinned h id hid => h id ((hthinned.statusOf_active id).mp hid)
  refine Leads.bind (M := fun _ => (Committing staged state).On) (fun _ => hagrees) ?_ fun _ => ?_
  · refine (leads_setStatus hmine hflight (stable_on hmine hcommitting)
      (fun ledger journal h _ _ row hrow => ?_)
      fun ledger ledger' journal hrecoverable h hset => ?_).mono (fun _ h => h) (fun _ _ h => h)
      fun _ _ h => h.2 (by decide)
    · obtain ⟨row', hrow', -, hstatus⟩ := h.aligned.row
      rw [hrow] at hrow'
      cases hrow'
      exact survives_of_isInFlight _ hstatus
    · have haimed : Committing staged state ledger' journal :=
        ⟨h.aligned.setStatus hset rfl, h.desired⟩
      exact ⟨haimed.recoverable hactive hsucceeds (readable_setStatus hrecoverable.readable hset),
        haimed⟩
  refine Leads.bind (M := fun _ => (Superseding staged state).On) (fun _ => hagrees) ?_ fun _ => ?_
  · have hprevious := hsucceeds.previous
    unfold Staged.supersede
    cases hcase : staged.previous with
    | none =>
      rw [hcase] at hprevious
      refine leads_pure (stable_on hmine hsuperseding) fun s hs => ⟨hs, fun id hid => ?_⟩
      rcases hs.aligned.others id hid with h | h
      · exact h
      · rw [hprevious] at h
        cases h
    | some previous =>
      rw [hcase] at hprevious
      have hne : previous.1.id ≠ staged.row.id := fun h => hsucceeds.fresh (by
        rw [hprevious, ← h]
        rfl)
      rw [Option.filter_some, if_pos (by simpa using hne)]
      refine (leads_setStatus hmine (stable_on hmine hcommitting) (stable_on hmine hsuperseding)
        (fun _ _ _ _ h => by cases h) fun ledger ledger' journal hrecoverable h hset => ?_).mono
        (fun _ h => h) (fun _ _ h => h) fun _ _ h => h.2 (by decide)
      have hrow : ledger'.get? staged.row.id = ledger.get? staged.row.id := by
        rw [get?_setStatus hset, if_neg hne.symm]
      have hothers : ∀ id, ledger'.statusOf id = some .active → id = staged.row.id := by
        intro id hid
        rw [statusOf_setStatus hset] at hid
        split at hid
        · cases hid
        · rename_i hother
          rcases h.aligned.others id hid with h | h
          · exact h
          · rw [hprevious] at h
            exact absurd (Option.some.inj h).symm hother
      have haimed : Committing staged state ledger' journal :=
        ⟨⟨h.aligned.active, hrow ▸ h.aligned.row, fun id hid => .inl (hothers id hid)⟩, h.desired⟩
      exact ⟨haimed.recoverable hactive hsucceeds (readable_setStatus hrecoverable.readable hset),
        haimed, hothers⟩
  refine (leads_writeState hmine (stable_on hmine hsuperseding) hagrees
    fun ledger journal hrecoverable h => ?_).mono (fun _ h => h) (fun _ _ h => h) fun _ _ h => h.2
  have hagrees' : Agrees ledger ⟨some staged.row.id, none, .idle, saturatingSucc state.generation⟩ := by
    intro id
    constructor
    · intro hid
      cases hid
      obtain ⟨row, hrow, -, hstatus⟩ := h.1.aligned.row
      unfold Generations.statusOf
      rw [hrow, Option.map_some, hstatus]
    · intro hid
      rw [h.2 id hid]
  exact ⟨⟨hrecoverable.readable, nofun, .inl hagrees'⟩, hagrees'⟩

include hmine hsucceeds in
/-- An activation that ends leaves the ledger and the journal in agreement. -/
theorem activateStaged_leads (site : Option SiteManifest) (maintenance : Maintenance)
    (hstable : (serving alone settled).Stable mine (On (Aligned staged state K)))
    (hK : alone = false → ∀ status, K status → status.survivesRetention = true)
    (hfree : mine .workspaceManifest = false) (hfree' : mine .maintenance = false) :
    (serving alone settled).Leads mine
      (fun s => On (Aligned staged state K) s ∧
        (On Agrees s ∨ s.journal.desiredGenerationId = some staged.row.id))
      (activateStaged staged site state maintenance) (fun _ => On Agrees) fun _ => On Agrees := by
  have hagrees : (serving alone settled).Stable mine (On Agrees) := stable_on hmine thinnable_agrees
  have hflight : (serving alone settled).Stable mine (InFlight staged state).On :=
    stable_inFlight hmine
  refine (validate_leads hmine hsucceeds site hstable hK).bind (fun _ => hagrees) fun _ => ?_
  refine (setInFlight_leads hmine hsucceeds hflight
    (fun _ => survives_of_isInFlight) rfl).bind (fun _ => hagrees) fun _ => ?_
  refine (buildRuntime_leads hmine hsucceeds).bind (fun _ => hagrees) fun _ => ?_
  refine (publish_leads hmine hsucceeds).bind (fun _ => hagrees) fun _ => ?_
  refine (commit_leads hmine hsucceeds).bind (fun _ => hagrees) fun _ => ?_
  refine Leads.bind (M := fun _ => On Agrees) (fun _ => hagrees) ?_
    fun _ => leads_look rfl rfl hagrees
  cases maintenance with
  | deferred => exact leads_pure hagrees fun _ hs => hs
  | «inline» turns =>
    refine maintain_leads (fun mine' hmine' => stable_on (fun halone => ?_) thinnable_agrees)
      thinnable_agrees hfree hfree' turns
    rw [hmine', hmine halone]

end Activation

/-! ## Requests -/

section Request

variable {state : RuntimeState}

/-- The journal is as it was read, and the generation it names is the one that was loaded. -/
structure Read (state : RuntimeState) (previous : Option LoadedGeneration) (ledger : Generations)
    (journal : RuntimeState) : Prop where
  agrees : Agrees ledger journal
  journal : journal = state
  previous : state.activeGenerationId = previous.map (·.1.id)

theorem thinnable_read (previous : Option LoadedGeneration) : Thinnable (Read state previous) :=
  fun _ _ _ hthinned h => ⟨h.agrees.thinned hthinned, h.journal, h.previous⟩

/-- What a call that looks has answered. -/
theorem leads_reads {c : DevCall} {M : Reply c → LedgerAssertion} (hreads : c.reads = true)
    (hP : (serving alone settled).Stable mine P.On)
    (hM : ∀ reply, (serving alone settled).Stable mine (M reply).On)
    (h : ∀ chance s s' reply, Recoverable s.generations s.journal → P.On s →
      answer chance c s = (.ok reply, s') → M reply s.generations s.journal) :
    (serving alone settled).Leads mine P.On (call c) (fun reply => (M reply).On) fun _ => P.On := by
  have hquiet : c.writesLedger = false ∧ c.lockEffect = none := by
    cases c <;> first | exact ⟨rfl, rfl⟩ | (cases hreads; done)
  refine leads_call (fun _ => hquiet.2) hP hM (fun _ => hP) fun s hknown => ?_
  obtain ⟨howned, hrest⟩ := calls_quiet hquiet.1 hquiet.2 s hknown
  refine ⟨howned, fun chance hadmits hfree => ?_⟩
  obtain ⟨hkeeps, hs', -⟩ := hrest chance hadmits hfree
  refine ⟨hkeeps, ?_⟩
  cases hanswer : (perform chance c s).1 with
  | error e => exact hs'
  | ok reply =>
    obtain ⟨hgenerations, hjournal⟩ := ledger_of_perform hquiet.1 chance s
    change M reply _ _
    rw [hgenerations, hjournal]
    exact h chance (s.after chance.elapsed) _ reply hknown.keeps.1 hknown.assertion
      (answer_of_perform (Prod.ext hanswer rfl))

theorem loadPrevious_leads (hmine : alone = false → mine .activation = true) :
    (serving alone settled).Leads mine
      (On fun ledger journal => Agrees ledger journal ∧ journal = state) (loadPrevious state)
      (fun previous => On (Read state previous)) fun _ => On Agrees := by
  have hagrees : (serving alone settled).Stable mine (On Agrees) := stable_on hmine thinnable_agrees
  have hread : ∀ previous, (serving alone settled).Stable mine (On (Read state previous)) :=
    fun previous => stable_on hmine (thinnable_read previous)
  have hcurrent : Thinnable fun ledger journal => Agrees ledger journal ∧ journal = state :=
    fun _ _ _ hthinned h => ⟨h.1.thinned hthinned, h.2⟩
  unfold loadPrevious
  split
  · rename_i hnone
    exact leads_pure (hread none) fun _ hs => ⟨hs.1, hs.2, hnone⟩
  · rename_i id hsome
    refine ((leads_reads (c := .getGeneration id) (M := fun row ledger journal =>
      (Agrees ledger journal ∧ journal = state) ∧ row.id = id) rfl (stable_on hmine hcurrent)
      (fun row => stable_on hmine (hcurrent.and fun _ _ _ _ h => h))
      fun chance s s' row _ hs hanswer => ?_).mono (fun _ h => h) (fun _ _ h => h)
      fun _ _ h => h.1).bind (fun _ => hagrees) fun row => ?_
    · refine ⟨hs, ?_⟩
      simp only [answer] at hanswer
      split at hanswer
      · rename_i row' hrow
        cases hanswer
        exact (Table.get?_eq_some_iff.mp hrow).2
      · cases (Prod.ext_iff.mp hanswer).1
    · split
      · rename_i manifest hmanifest
        refine leads_pure (hread _) fun s hs => ⟨hs.1.1, hs.1.2, ?_⟩
        rw [hsome, ← hs.2]
        rfl
      · exact leads_throw hagrees fun s hs => hs.1.1

/-- The generation that is appended succeeds the one that was loaded. -/
structure StagedIn (staged : Staged) (state : RuntimeState) (ledger : Generations)
    (journal : RuntimeState) : Prop where
  aligned : Aligned staged state (fun status => status = .staged) ledger journal
  agrees : Agrees ledger journal
  succeeds : staged.Succeeds state

theorem survives_of_staged : ∀ status : GenerationStatus, status = .staged →
    status.survivesRetention = true := by
  rintro _ rfl
  rfl

theorem thinnable_stagedIn {staged : Staged} : Thinnable (StagedIn staged state) :=
  fun _ _ _ hthinned h => ⟨thinnable_aligned survives_of_staged _ _ _ hthinned h.aligned,
    h.agrees.thinned hthinned, h.succeeds⟩

/-- An appended row is staged: the ledger agrees with the journal as it did before. -/
theorem Agrees.insert {ledger ledger' : Generations} {journal : RuntimeState}
    {row : GenerationRow} (h : Agrees ledger journal) (hinsert : ledger.insert row = some ledger')
    (hstatus : row.status = .staged) : Agrees ledger' journal := by
  intro id
  rw [h id]
  unfold Generations.statusOf
  rw [get?_insertRow hinsert]
  split
  · rename_i hid
    have hnone : ledger.get? row.id = none := Table.get?_of_insert hinsert
    subst hid
    rw [hnone, Option.map_some, hstatus]
    exact iff_of_false (fun h => by cases h) (by decide)
  · exact Iff.rfl

theorem insertGeneration_leads (hmine : alone = false → mine .activation = true)
    {previous : Option LoadedGeneration} (new : NewGeneration) :
    (serving alone settled).Leads mine (On (Read state previous)) (call (.insertGeneration new))
      (fun row => On (StagedIn ⟨row, new.manifest, previous⟩ state)) fun _ => On Agrees := by
  refine leads_call (fun _ => rfl) (stable_on hmine (thinnable_read previous))
    (fun _ => stable_on hmine thinnable_stagedIn) (fun _ => stable_on hmine thinnable_agrees)
    fun s hknown => ?_
  refine ⟨owned_of_drives hmine rfl trivial, fun chance _ _ => ?_⟩
  have hheld : (perform chance (.insertGeneration new) s).2.held = s.held :=
    held_perform_of_none rfl _ _
  have hread : Read state previous s.generations s.journal := hknown.assertion
  cases hanswer : (perform chance (.insertGeneration new) s).1 with
  | error e =>
    obtain ⟨hgenerations, hjournal⟩ := ledger_of_error hanswer
    refine ⟨keeps_of_ledger hknown.keeps hgenerations hjournal hheld, ?_⟩
    change Agrees _ _
    rw [hgenerations, hjournal]
    exact hread.agrees
  | ok row =>
    have hperform := answer_of_perform (Prod.ext hanswer rfl)
    simp only [answer] at hperform
    split at hperform
    · rename_i ledger' hinsert
      have hrow : _ = row := Except.ok.inj (Prod.ext_iff.mp hperform).1
      have hs' := (Prod.ext_iff.mp hperform).2
      change s.generations.insert _ = some ledger' at hinsert
      have hgenerations : (perform chance (.insertGeneration new) s).2.generations = ledger' := by
        rw [← hs']
      have hjournal : (perform chance (.insertGeneration new) s).2.journal = s.journal := by
        rw [← hs']
        rfl
      rw [hrow] at hinsert
      have hstatus : row.status = .staged := by
        rw [← hrow]
      have hmanifest : row.manifest = some new.manifest := by
        rw [← hrow]
      have hagrees := hread.agrees.insert hinsert hstatus
      have hnone : s.generations.get? row.id = none := Table.get?_of_insert hinsert
      have hfresh : s.journal.activeGenerationId ≠ some row.id := fun h => by
        have hactive := (hread.agrees row.id).mp h
        unfold Generations.statusOf at hactive
        rw [hnone] at hactive
        cases hactive
      refine ⟨keeps_of_recoverable hmine hknown.held hheld ?_, ?_⟩
      · rw [hgenerations, hjournal]
        refine ⟨fun id other hother => ?_, hknown.keeps.1.apart, .inl hagrees⟩
        rw [get?_insertRow hinsert] at hother
        split at hother
        · cases hother
          rw [hmanifest]
          exact (fun h => by cases h)
        · exact hknown.keeps.1.readable id other hother
      · change StagedIn _ _ _ _
        rw [hgenerations, hjournal]
        refine ⟨⟨congrArg _ hread.journal, ⟨row, ?_, hmanifest, hstatus⟩, fun id hid => .inr ?_⟩,
          hagrees, ⟨hread.previous, ?_⟩⟩
        · rw [get?_insertRow hinsert, if_pos rfl]
        · rw [← hread.journal]
          exact (hagrees id).mpr hid
        · rw [← hread.journal]
          exact hfresh
    · cases (Prod.ext_iff.mp hperform).1

theorem compose_leads (hstable : (serving alone settled).Stable mine P.On)
    (intent : ActivationIntent) (previous : Option LoadedGeneration) :
    (serving alone settled).Leads mine P.On (compose intent previous) (fun _ => P.On)
      fun _ => P.On := by
  have hsite : (serving alone settled).Leads mine P.On workspaceSite (fun _ => P.On)
      fun _ => P.On :=
    (leads_look rfl rfl hstable).bind (fun _ => hstable) fun _ => leads_pure hstable fun _ hs => hs
  unfold compose
  dsimp only
  split
  · exact hsite.bind (fun _ => hstable) fun _ => leads_pure hstable fun _ hs => hs
  · exact leads_pure hstable fun _ hs => hs
  · exact hsite.bind (fun _ => hstable) fun _ => leads_pure hstable fun _ hs => hs
  · exact leads_pure hstable fun _ hs => hs
  · exact leads_pure hstable fun _ hs => hs

theorem stageGeneration_leads (hmine : alone = false → mine .activation = true)
    (previous : Option LoadedGeneration) (cause : GenerationCause) (intent : ActivationIntent) :
    (serving alone settled).Leads mine (On (Read state previous))
      (stageGeneration cause intent previous)
      (fun staged => On (StagedIn ⟨staged.1, staged.2, previous⟩ state)) fun _ => On Agrees := by
  have hread : (serving alone settled).Stable mine (On (Read state previous)) :=
    stable_on hmine (thinnable_read previous)
  have hagrees : (serving alone settled).Stable mine (On Agrees) := stable_on hmine thinnable_agrees
  refine ((compose_leads hread intent previous).mono (fun _ h => h) (fun _ _ h => h)
    fun _ _ h => h.agrees).bind (fun _ => hagrees) fun manifest => ?_
  refine ((leads_look rfl rfl hread).mono (fun _ h => h) (fun _ _ h => h)
    fun _ _ h => h.agrees).bind (fun _ => hagrees) fun id => ?_
  exact (insertGeneration_leads hmine ⟨id, cause, manifest⟩).bind (fun _ => hagrees) fun _ =>
    leads_pure (stable_on hmine thinnable_stagedIn) fun _ hs => hs

theorem adoptIfRollback_leads (hmine : alone = false → mine .activation = true)
    (hfree : mine .workspaceManifest = false) (intent : ActivationIntent) (id : ℕ)
    (site : SiteManifest) :
    (serving alone settled).Leads mine (On Agrees) (adoptIfRollback intent id site)
      (fun _ => On Agrees) fun _ => On Agrees := by
  have hlock : Lock.workspaceManifest ≠ .activation := by decide
  have hsteady : Steady alone settled mine Agrees := fun mine' hmine' =>
    stable_on (fun halone => hmine'.trans (hmine halone)) thinnable_agrees
  have hagrees := hsteady mine rfl
  have hagrees' := hsteady.update hlock _ rfl
  unfold adoptIfRollback
  split
  · refine Leads.attempt (M := fun _ => On Agrees) (F := fun _ => On Agrees)
      (holding_leads (M := fun _ => Agrees) hlock hfree hagrees
        (fun mine' hmine' => ⟨fun _ => hsteady mine' hmine', hsteady mine' hmine'⟩) ?_)
      (fun _ => leads_pure hagrees fun _ hs => hs) fun _ => leads_throw hagrees fun _ hs => hs
    exact (leads_look rfl rfl hagrees').bind (fun _ => hagrees') fun _ =>
      leads_look rfl rfl hagrees'
  · exact leads_pure hagrees fun _ hs => hs

/-- Under the queue, an activation leads from agreement to agreement, however it ends. -/
theorem activate_leads (hmine : alone = false → mine .activation = true)
    (hfree : mine .workspaceManifest = false) (hfree' : mine .maintenance = false)
    (cause : GenerationCause) (intent : ActivationIntent) (maintenance : Maintenance) :
    (serving alone settled).Leads mine (On Agrees) (activate cause intent maintenance)
      (fun _ => On Agrees) fun _ => On Agrees := by
  have hlock : Lock.workspaceManifest ≠ .activation := by decide
  have hagrees : (serving alone settled).Stable mine (On Agrees) := stable_on hmine thinnable_agrees
  have hcurrent : ∀ state : RuntimeState, Thinnable fun ledger journal =>
      Agrees ledger journal ∧ journal = state :=
    fun _ _ _ _ hthinned h => ⟨h.1.thinned hthinned, h.2⟩
  refine (leads_reads (M := fun state ledger journal => Agrees ledger journal ∧ journal = state)
    rfl hagrees (fun state => stable_on hmine (hcurrent state)) fun chance s s' state _ hs h =>
      ?_).bind (fun _ => hagrees) fun state => ?_
  · cases h
    exact ⟨hs, rfl⟩
  refine (loadPrevious_leads hmine).bind (fun _ => hagrees) fun previous => ?_
  refine (holding_leads (M := fun staged => StagedIn ⟨staged.1, staged.2, previous⟩ state)
    (F := Agrees) hlock hfree (stable_on hmine (thinnable_read previous)) (fun mine' hmine' => ?_)
    (stageGeneration_leads (fun halone => (Function.update_of_ne hlock.symm ..).trans
      (hmine halone)) previous cause intent)).bind (fun _ => hagrees) fun staged => ?_
  · have hmine'' : alone = false → mine' .activation = true :=
      fun halone => hmine'.trans (hmine halone)
    exact ⟨fun _ => stable_on hmine'' thinnable_stagedIn, stable_on hmine'' thinnable_agrees⟩
  obtain ⟨row, manifest⟩ := staged
  by_cases hsucceeds : Staged.Succeeds ⟨row, manifest, previous⟩ state
  swap
  · exact fun s hs => absurd hs.succeeds hsucceeds
  refine Leads.bind (M := fun _ => On Agrees) (fun _ => hagrees) ?_ fun activated => ?_
  · exact (activateStaged_leads hmine hsucceeds _ maintenance
      (stable_on hmine (thinnable_aligned survives_of_staged)) (fun _ => survives_of_staged)
      hfree hfree').mono (fun _ hs => ⟨hs.aligned, .inl hs.agrees⟩) (fun _ _ h => h)
      fun _ _ h => h
  · exact (adoptIfRollback_leads hmine hfree intent row.id manifest.site).bind (fun _ => hagrees)
      fun _ => leads_pure hagrees fun _ hs => hs

theorem stable_true : (serving alone settled).Stable mine fun _ => True := fun _ _ _ _ => trivial

/-- A request takes the queue in agreement and releases it in agreement. -/
theorem request_leads (hqueue : mine .activation = false) (hfree : mine .workspaceManifest = false)
    (hfree' : mine .maintenance = false) (cause : GenerationCause) (intent : ActivationIntent)
    (maintenance : Maintenance) :
    (serving alone settled).Leads mine (fun _ => True) (request cause intent maintenance)
      (fun _ _ => True) fun _ _ => True := by
  have hmine : alone = false → Function.update mine Lock.activation true .activation = true :=
    fun _ => Function.update_self ..
  have hagrees : (serving alone settled).Stable (Function.update mine .activation true)
      (On Agrees) := stable_on hmine thinnable_agrees
  have hunlock : (serving alone settled).Calls (Function.update mine .activation true)
      (On Agrees) (.unlock .activation) fun _ _ => True := by
    intro s hknown
    refine ⟨⟨fun l h => ?_, fun _ l h => ?_, hknown.assertion⟩, fun chance _ _ =>
      ⟨⟨hknown.keeps.1, fun _ _ _ => hknown.assertion⟩, trivial⟩⟩
    · rcases h.2 with ⟨-, h⟩ | ⟨-, h⟩ <;> cases h
    · cases h
      exact Function.update_self ..
  refine (sandboxLocks_stands _).leads_holding hqueue stable_true (fun _ => stable_true) (fun _ => stable_true)
    (fun _ => hagrees) (fun _ => hagrees) (R := On Agrees) (fun s hknown => ?_)
    (activate_leads hmine ((Function.update_of_ne (by decide) ..).trans hfree)
      ((Function.update_of_ne (by decide) ..).trans hfree') cause intent maintenance)
    (fun _ => hunlock) fun _ => hunlock
  refine ⟨⟨fun l h => ?_, fun _ l h => ?_, trivial⟩, fun chance hadmits _ =>
    ⟨⟨hknown.keeps.1, fun _ _ hheld => ?_⟩, ?_⟩⟩
  · rcases h.2 with ⟨-, h⟩ | ⟨-, h⟩ <;> cases h
  · cases h
  · have htaken := held_perform_lock chance .activation true s (.lock .activation) rfl .activation
    rw [if_pos rfl, hheld] at htaken
    cases htaken
  · exact hadmits.resolve_right fun h => h.1 rfl

end Request

end Dev
