import Impresspress.Dev.Commit

/-!
# One serving generation

An instance lives through any number of processes. Each of them boots, and serves requests and
maintenance passes when its boot has returned, until it stops between any two calls.

## Main definitions

* `Dev.Life`: one process of an instance.
* `Dev.Life.Unbroken`: what its calls meet while the ledger and the journal disagree.

## Main results

* `Dev.convergeOnBoot_leads`: a convergence that succeeds leaves ledger and journal in agreement.
* `Dev.one_serving_generation`: they agree whenever no activation runs.
-/

namespace Dev

open Concurrent Concurrent.Contract Concurrent.Fallible
open LedgerAssertion
open Relational (Table)

/-! ## Boot convergence -/

section Boot

variable {settled : Prop} {mine : Lock → Bool} {P : LedgerAssertion} {state : RuntimeState}

/-- Nobody else changes the store while a process boots. -/
theorem stable_alone {Q : DevStore → Prop} : (serving true settled).Stable mine Q := by
  intro s s' hs hat
  have hrely : s' = s := hat.rely
  rwa [hrely]

private theorem no_queue : true = false → mine .activation = true := nofun

/-- The row that a boot convergence looks up, as the ledger has it. -/
theorem loadJournalled_leads (id : ℕ) :
    (serving true settled).Leads mine P.On (loadJournalled id)
      (fun found => On fun ledger journal => P ledger journal ∧ Recoverable ledger journal ∧
        found = journalled (ledger.get? id)) fun _ => P.On := by
  refine (leads_reads (M := fun row ledger journal => P ledger journal ∧
    Recoverable ledger journal ∧ row = ledger.get? id) rfl stable_alone (fun _ => stable_alone)
    fun chance s s' row hrecoverable hs hanswer => ?_).bind (fun _ => stable_alone) fun row =>
      leads_pure stable_alone fun s hs => ⟨hs.1, hs.2.1, by rw [← hs.2.2]⟩
  cases hanswer
  exact ⟨hs, hrecoverable, rfl⟩

/-- A loaded row is there. -/
theorem loaded_of_journalled {ledger : Generations} {id : ℕ} {row : GenerationRow}
    {manifest : GenerationManifest}
    (h : Journalled.loaded (row, manifest) = journalled (ledger.get? id)) :
    ledger.get? id = some row ∧ row.manifest = some manifest ∧ row.id = id := by
  unfold journalled at h
  split at h
  · rename_i row' hrow
    split at h
    · rename_i manifest' hmanifest
      cases h
      exact ⟨hrow, hmanifest, (Table.get?_eq_some_iff.mp hrow).2⟩
    · cases h
  · cases h

/-- Every row can be read, so a dangling pointer is one to a row that is gone. -/
theorem gone_of_journalled {ledger : Generations} {journal : RuntimeState} {id : ℕ}
    (hrecoverable : Recoverable ledger journal)
    (h : Journalled.dangling = journalled (ledger.get? id)) : ledger.get? id = none := by
  unfold journalled at h
  split at h
  · rename_i row hrow
    split at h
    · cases h
    · rename_i hmanifest
      exact absurd hmanifest (hrecoverable.readable id row hrow)
  · assumption

/-- A row that is gone needs no closing. -/
theorem abandonDangling_leads {id : ℕ} (hgone : ∀ ledger journal, P ledger journal →
    ledger.get? id = none) :
    (serving true settled).Leads mine P.On (abandonDangling id) (fun _ => P.On)
      fun _ => P.On := by
  refine Leads.attempt (M := fun _ _ => False) (F := fun _ => P.On) ?_
    (fun _ s hs => hs.elim) fun _ => leads_pure stable_alone fun _ hs => hs
  refine leads_reads (c := .getGeneration id) (M := fun _ _ _ => False) rfl stable_alone
    (fun _ => stable_alone) fun chance s s' row _ hs hanswer => ?_
  have hnone : s.generations.get? id = none := hgone _ _ hs
  simp only [answer] at hanswer
  rw [hnone] at hanswer
  cases (Prod.ext_iff.mp hanswer).1

/-- The journal is as the convergence knows it, and the generation it names is loaded. -/
structure Journals (settled' : Prop) (read : Option LoadedGeneration × RuntimeState)
    (ledger : Generations) (journal : RuntimeState) : Prop where
  agrees : settled' → Agrees ledger journal
  journal : journal = read.2
  previous : read.2.activeGenerationId = read.1.map (·.1.id)

theorem activeOrClear_leads (settled' : Prop) :
    (serving true settled).Leads mine
      (On fun ledger journal => journal = state ∧ (settled' → Agrees ledger journal))
      (activeOrClear state) (fun read => On (Journals settled' read)) fun _ _ => True := by
  unfold activeOrClear
  split
  · rename_i hnone
    exact leads_pure stable_alone fun _ hs => ⟨hs.2, hs.1, hnone⟩
  · rename_i id hsome
    refine ((loadJournalled_leads id).mono (fun _ h => h) (fun _ _ h => h)
      fun _ _ _ => trivial).bind (fun _ => stable_alone) fun found => ?_
    cases found with
    | loaded generation =>
      obtain ⟨row, manifest⟩ := generation
      refine leads_pure stable_alone fun s hs => ⟨hs.1.2, hs.1.1, ?_⟩
      rw [hsome, ← (loaded_of_journalled hs.2.2).2.2]
      rfl
    | dangling =>
      -- the commit that was begun for the desired generation does not need the row
      refine ((abandonDangling_leads (P := fun ledger journal =>
        (journal = state ∧ (settled' → Agrees ledger journal)) ∧ ledger.get? id = none)
        fun _ _ h => h.2).mono (fun s hs => ⟨hs.1, gone_of_journalled hs.2.1 hs.2.2⟩)
        (fun _ _ h => h) fun _ _ _ => trivial).bind (fun _ => stable_alone) fun _ => ?_
      refine ((leads_writeState (M := Journals settled' (none, _)) no_queue stable_alone
        stable_alone fun ledger journal hrecoverable h => ?_).mono (fun _ h => h) (fun _ _ h => h)
        fun _ _ _ => trivial).bind (fun _ => stable_alone) fun _ =>
          leads_pure stable_alone fun _ hs => hs
      obtain ⟨⟨rfl, hagrees⟩, hgone⟩ := h
      have hbroken : ¬ Agrees ledger journal := fun h => by
        have hactive := (h id).mp hsome
        unfold Generations.statusOf at hactive
        rw [hgone] at hactive
        cases hactive
      refine ⟨⟨hrecoverable.readable, fun _ _ => nofun, .inr ?_⟩,
        fun h => absurd (hagrees h) hbroken, rfl, rfl⟩
      obtain ⟨desired, row, hdesired, hrow, hsurvives, hothers⟩ :=
        hrecoverable.state.resolve_left hbroken
      refine ⟨desired, row, hdesired, hrow, hsurvives, fun other hother => ?_⟩
      refine (hothers other hother).imp_right fun h => ?_
      rw [hsome] at h
      cases h
      unfold Generations.statusOf at hother
      rw [hgone] at hother
      cases hother

/-- The rows still to be closed are not active. -/
def Retiring (state : RuntimeState) (rows : List GenerationRow) (ledger : Generations)
    (journal : RuntimeState) : Prop :=
  journal = state ∧ ∀ row ∈ rows, ledger.statusOf row.id ≠ some .active

theorem retireGenerations_leads (rows : List GenerationRow) :
    (serving true settled).Leads mine (On (Retiring state rows))
      (retireGenerations state.desiredGenerationId rows)
      (fun _ => On fun _ journal => journal = state) fun _ _ => True := by
  induction rows with
  | nil => exact leads_pure stable_alone fun _ hs => hs.1
  | cons row rows ih =>
    have htail : ∀ s, On (Retiring state (row :: rows)) s → On (Retiring state rows) s :=
      fun s hs => ⟨hs.1, fun other hother => hs.2 other (List.mem_cons_of_mem row hother)⟩
    unfold retireGenerations
    split
    · exact ih.mono htail (fun _ _ h => h) fun _ _ h => h
    · rename_i hother
      refine Leads.attempt (M := fun _ => On (Retiring state rows))
        (F := fun _ => On (Retiring state rows)) ?_ (fun _ => ih) fun _ => ih
      refine (leads_setStatus (M := Retiring state rows) no_queue stable_alone stable_alone
        (fun _ _ _ h => by cases h) fun ledger ledger' journal hrecoverable h hset => ?_).mono
        (fun _ h => h) (fun _ _ h => h) fun _ s h => htail s h.1
      obtain ⟨rfl, hsettled⟩ := h
      have hstatus : ∀ id, ledger'.statusOf id = some .active → ledger.statusOf id = some .active := by
        intro id hid
        rw [statusOf_setStatus hset] at hid
        split at hid
        · cases hid
        · exact hid
      have hinactive := hsettled row List.mem_cons_self
      refine ⟨⟨readable_setStatus hrecoverable.readable hset, hrecoverable.apart, ?_⟩, rfl,
        fun other hmem h => hsettled other (List.mem_cons_of_mem row hmem) (hstatus _ h)⟩
      refine hrecoverable.state.imp (fun hagrees => ?_) ?_
      · exact hagrees.setStatus hset (fun h => hinactive ((hagrees _).mp h)) (by decide)
      · rintro ⟨desired, row', hdesired, hrow', hsurvives, hothers⟩
        refine ⟨desired, row', hdesired, ?_, hsurvives, fun id hid => hothers id (hstatus id hid)⟩
        rw [get?_setStatus hset, if_neg, hrow']
        rintro rfl
        exact hother hdesired

def DevCall.quiet (c : DevCall) : Prop := c.writesLedger = false ∧ c.lockEffect = none

theorem retireInFlight_only (vouched : List Sha) :
    (retireInFlight vouched).run.Only DevCall.quiet :=
  only_bind (only_call ⟨rfl, rfl⟩) fun _ => only_forM fun _ _ => only_call ⟨rfl, rfl⟩

theorem retireBuilds_only (desired : Option ℕ) (vouched : List Sha) :
    (retireBuilds desired vouched).run.Only DevCall.quiet := by
  have hretire : ∀ vouched, (do
      let _ ← attempt (retireInFlight vouched)
      pure () : Task Unit).run.Only DevCall.quiet := fun vouched =>
    only_bind (only_attempt (retireInFlight_only vouched)) fun _ => only_pure _
  unfold retireBuilds
  split
  · exact hretire vouched
  · refine only_bind (only_attempt (only_bind (only_call ⟨rfl, rfl⟩) fun _ => only_pure _))
      fun loaded => ?_
    split
    · exact hretire _
    · exact hretire vouched
    · exact only_pure _

/-- What was left in flight is closed, and the generation that the journal desires is not. -/
theorem retireAbandoned_leads (previous : Option LoadedGeneration) :
    (serving true settled).Leads mine (On fun _ journal => journal = state)
      (retireAbandoned state previous) (fun _ => On fun _ journal => journal = state)
      fun _ _ => True := by
  have hrows : ∀ rows : List GenerationRow, (serving true settled).Leads mine
      (On (Retiring state rows))
      (do
        retireGenerations state.desiredGenerationId rows
        retireBuilds state.desiredGenerationId
          ((previous.map fun generation => generation.2.blocks.map (·.artifactSha256)).getD []))
      (fun _ => On fun _ journal => journal = state) fun _ _ => True := fun rows =>
    (retireGenerations_leads rows).bind (fun _ => stable_alone) fun _ =>
      (leads_quiet stable_alone (retireBuilds_only _ _) fun _ h => h).mono (fun _ h => h)
        (fun _ _ h => h) fun _ _ _ => trivial
  refine Leads.attempt (M := fun rows => On (Retiring state rows))
    (F := fun _ => On (Retiring state [])) ?_ hrows fun _ => hrows []
  refine (leads_reads (c := .listInFlight) (M := fun rows => Retiring state rows) rfl stable_alone
    (fun _ => stable_alone) fun chance s s' rows _ hs hanswer => ?_).mono (fun _ h => h)
    (fun _ _ h => h) fun _ s hs => ⟨hs, nofun⟩
  cases hanswer
  refine ⟨hs, fun row hrow hactive => ?_⟩
  obtain ⟨hmem, hflight⟩ := mem_listInFlight hrow
  unfold Generations.statusOf at hactive
  rw [get?_of_mem hmem] at hactive
  have hstatus : row.status = .active := Option.some.inj hactive
  rw [hstatus] at hflight
  cases hflight

theorem restoreActiveSite_leads (published : Option SiteManifest)
    (previous : Option LoadedGeneration) :
    (serving true settled).Leads mine P.On (restoreActiveSite published previous) (fun _ => P.On)
      fun _ _ => True := by
  unfold restoreActiveSite
  split
  · exact leads_pure stable_alone fun _ hs => hs
  · exact ((publishSite_leads no_queue stable_alone published _).mono (fun _ h => h)
      (fun _ _ h => h) fun _ _ _ => trivial).bind (fun _ => stable_alone) fun _ =>
        leads_pure stable_alone fun _ hs => hs

/-- The journal is at rest, or the activation that it names is finished. -/
theorem convergeOnDesired_leads (hfree : mine .workspaceManifest = false)
    (hfree' : mine .maintenance = false) {previous : Option LoadedGeneration} (turns : ℕ)
    (hprevious : state.activeGenerationId = previous.map (·.1.id)) :
    (serving true settled).Leads mine
      (On fun ledger journal => Recoverable ledger journal ∧ journal = state)
      (convergeOnDesired state previous turns) (fun _ => On Agrees) fun _ _ => True := by
  unfold convergeOnDesired
  split
  · rename_i hnone
    refine leads_pure stable_alone fun s hs => ?_
    obtain ⟨hrecoverable, hjournal⟩ := hs
    refine hrecoverable.state.resolve_right ?_
    rintro ⟨id, -, hdesired, -⟩
    rw [hjournal, hnone] at hdesired
    cases hdesired
  rename_i desired hdesired
  refine ((loadJournalled_leads desired).mono (fun _ h => h) (fun _ _ h => h)
    fun _ _ _ => trivial).bind (fun _ => stable_alone) fun found => ?_
  cases found with
  | loaded generation =>
    obtain ⟨row, manifest⟩ := generation
    intro s hs
    have hloaded := loaded_of_journalled hs.2.2
    obtain ⟨⟨hrecoverable, hjournal⟩, -⟩ := hs
    have hsucceeds : Staged.Succeeds ⟨row, manifest, previous⟩ state := by
      refine ⟨hprevious, ?_⟩
      rw [hloaded.2.2, ← hjournal]
      exact hrecoverable.apart desired (hjournal ▸ hdesired)
    have haligned : On (Aligned ⟨row, manifest, previous⟩ state fun _ => True) s := by
      refine ⟨by rw [hjournal], ⟨row, ?_, hloaded.2.1, trivial⟩, fun id hid => ?_⟩
      · rw [hloaded.2.2]
        exact hloaded.1
      · rw [← hjournal, hloaded.2.2]
        rcases hrecoverable.state with hagrees | ⟨other, -, hother, -, -, hothers⟩
        · exact .inr ((hagrees id).mpr hid)
        · rw [hjournal, hdesired] at hother
          cases hother
          exact hothers id hid
    have hdesired' : s.journal.desiredGenerationId = some row.id := by
      rw [hjournal, hdesired, hloaded.2.2]
    refine Leads.attempt (Q := fun s => On (Aligned ⟨row, manifest, previous⟩ state
      fun _ => True) s ∧ (On Agrees s ∨ s.journal.desiredGenerationId = some row.id))
      (activateStaged_leads no_queue hsucceeds none (.inline turns) stable_alone nofun hfree hfree')
      ?_ ?_ s ⟨haligned, .inr hdesired'⟩
    · exact fun _ => leads_pure stable_alone fun _ hs => hs
    · exact fun _ => restoreActiveSite_leads (some manifest.site) previous
  | dangling =>
    have hcurrent : ∀ s, On (fun ledger journal => (Recoverable ledger journal ∧ journal = state) ∧
        Recoverable ledger journal ∧ Journalled.dangling = journalled (ledger.get? desired)) s →
        On (fun ledger journal => (Agrees ledger journal ∧ journal = state) ∧
          ledger.get? desired = none) s := by
      rintro s ⟨⟨hrecoverable, hjournal⟩, -, hdangling⟩
      have hgone := gone_of_journalled hrecoverable hdangling
      refine ⟨⟨hrecoverable.state.resolve_right ?_, hjournal⟩, hgone⟩
      rintro ⟨id, row, hid, hrow, -⟩
      rw [hjournal, hdesired] at hid
      cases hid
      rw [hgone] at hrow
      cases hrow
    refine ((abandonDangling_leads fun _ _ h => h.2).mono hcurrent (fun _ _ h => h.1)
      fun _ _ _ => trivial).bind (fun _ => stable_alone) fun _ => ?_
    refine (restoreActiveSite_leads (P := fun ledger journal => Agrees ledger journal ∧
      journal = state) none previous).bind (fun _ => stable_alone) fun _ => ?_
    refine (leads_writeState no_queue stable_alone stable_alone
      fun ledger journal hrecoverable h => ?_).mono (fun _ h => h) (fun _ _ h => h)
      fun _ _ _ => trivial
    have hagrees : Agrees ledger
        { state with desiredGenerationId := none, activationPhase := .idle } :=
      agrees_congr (by rw [h.2]) h.1
    exact ⟨⟨hrecoverable.readable, nofun, .inl hagrees⟩, hagrees⟩

/-- What is kept at all times is known as well. -/
theorem leads_kept {α : Type} {p : Task α} {Q' : α → DevStore → Prop}
    {E : ActivationError → DevStore → Prop}
    (h : (serving true settled).Leads mine
      (On fun ledger journal => Recoverable ledger journal ∧ P ledger journal) p Q' E) :
    (serving true settled).Leads mine P.On p Q' E :=
  fun s hs => withstands_of_at fun s' hat => h s' ⟨hat.keeps.1, stable_alone s s' hs hat⟩

/-- A convergence that succeeds leaves the ledger and the journal in agreement. -/
theorem convergeOnBoot_leads (hfree : mine .workspaceManifest = false)
    (hfree' : mine .maintenance = false) (turns : ℕ) :
    (serving true settled).Leads mine (fun _ => True) (convergeOnBoot turns)
      (fun _ => On Agrees) fun _ _ => True := by
  have hread : ∀ Q : LedgerAssertion, (serving true settled).Leads mine Q.On (call .readState)
      (fun state => On fun ledger journal => Q ledger journal ∧ journal = state)
      fun _ _ => True := fun Q =>
    (leads_reads (M := fun state ledger journal => Q ledger journal ∧ journal = state) rfl
      stable_alone (fun _ => stable_alone) fun chance s s' state _ hs hanswer => by
        cases hanswer
        exact ⟨hs, rfl⟩).mono (fun _ h => h) (fun _ _ h => h) fun _ _ _ => trivial
  refine ((hread fun _ _ => True).mono (fun _ _ => trivial) (fun _ _ h => h)
    fun _ _ h => h).bind (fun _ => stable_alone) fun state => ?_
  refine ((activeOrClear_leads False).mono (fun _ hs => ⟨hs.2, False.elim⟩) (fun _ _ h => h)
    fun _ _ h => h).bind (fun _ => stable_alone) fun read => ?_
  obtain ⟨previous, state⟩ := read
  by_cases hprevious : state.activeGenerationId = previous.map (·.1.id)
  swap
  · exact fun s hs => absurd hs.previous hprevious
  refine ((retireAbandoned_leads previous).mono (fun _ hs => hs.journal) (fun _ _ h => h)
    fun _ _ h => h).bind (fun _ => stable_alone) fun _ => ?_
  refine (leads_kept (convergeOnDesired_leads hfree hfree' turns hprevious)).bind
    (fun _ => stable_alone) fun _ => ?_
  refine (hread Agrees).bind (fun _ => stable_alone) fun state' => ?_
  refine ((activeOrClear_leads True).mono (fun _ hs => ⟨hs.2, fun _ => hs.1⟩) (fun _ _ h => h)
    fun _ _ h => h).bind (fun _ => stable_alone) fun read => ?_
  exact leads_pure stable_alone fun _ hs => hs.agrees trivial

theorem isFresh_leads :
    (serving true settled).Leads mine (fun _ => True) isFresh (fun _ _ => True)
      fun _ _ => True := by
  have hlook : ∀ {c : DevCall}, c.writesLedger = false → c.lockEffect = none →
      (serving true settled).Leads mine (fun _ => True) (call c) (fun _ _ => True)
        fun _ _ => True := fun hc heffect =>
    leads_look (P := fun _ _ => True) hc heffect stable_alone
  refine (hlook rfl rfl).bind (fun _ => stable_alone) fun state => ?_
  split
  · exact leads_pure stable_alone fun _ _ => trivial
  · exact (hlook rfl rfl).bind (fun _ => stable_alone) fun _ =>
      leads_pure stable_alone fun _ _ => trivial

/-- A boot that succeeds leaves the ledger and the journal in agreement. -/
theorem install_leads (seed : Option GenerationManifest) (turns : ℕ) :
    (serving true settled).Leads (fun _ => false) (fun _ => True) (install seed turns)
      (fun _ => On Agrees) fun _ _ => True := by
  refine Leads.attempt (M := fun _ _ => True) (F := fun _ _ => True) ?_
    (fun _ => convergeOnBoot_leads rfl rfl turns) fun _ => convergeOnBoot_leads rfl rfl turns
  refine isFresh_leads.bind (fun _ => stable_alone) fun fresh => ?_
  split
  · exact (request_leads rfl rfl rfl _ _ _).bind (fun _ => stable_alone) fun _ =>
      leads_pure stable_alone fun _ _ => trivial
  · exact leads_pure stable_alone fun _ _ => trivial

end Boot

/-! ## Lives -/

/-- What a process is asked for. -/
inductive Work
  | request (cause : GenerationCause) (intent : ActivationIntent) (maintenance : Maintenance)
  | pass (turns : ℕ)

def Work.program : Work → Task Unit
  | .request cause intent maintenance => do
    let _ ← Dev.request cause intent maintenance
  | .pass turns => maintain turns

/-- One process of an instance, up to its stop. -/
structure Life where
  seed : Option GenerationManifest
  turns : ℕ
  boot : List Chance
  work : ℕ → Work
  schedule : List (ℕ × Chance)

/-- What a process that starts finds: no lock is held, and no blocks run. -/
def DevStore.restarted (s : DevStore) : DevStore :=
  { s with held := fun _ => false, runtime := ⟨[], none⟩ }

/-- Nothing was ever activated. -/
structure DevStore.Fresh (s : DevStore) : Prop where
  generations : s.generations = Table.empty
  journal : s.journal = ⟨none, none, .idle, 0⟩

/-- A statement about a call, the store it is made at and its answer. -/
abbrev CallProp :=
  (c : DevCall) → DevStore → Outcome ActivationError Reply c → Prop

/-- A lock is taken when it is free. -/
def TakenFree : CallProp := fun c s _ =>
  ∀ lock, c.lockEffect = some (lock, true) → s.held lock = false

/-- No active row is deleted. -/
def SparesActive : CallProp := fun c s _ =>
  ∀ ids, c = .deleteMany ids → ∀ id ∈ ids, s.generations.statusOf id ≠ some .active

namespace Life

variable (life : Life) (s : DevStore)

def booting : Pool Unit DevStore (Outcome ActivationError Reply)
    (Except ActivationError (List DynamicBlockSpec)) :=
  (Pool.launch s.restarted fun _ => (install life.seed life.turns).run).exec perform
    (life.boot.map fun chance => ((), chance))

/-- What the boot has returned, if it has. -/
def booted : Option (Except ActivationError (List DynamicBlockSpec)) :=
  match (life.booting s).running () with
  | .done result => some result
  | .call .. => none

/-- The requests and the passes, which arrive when the boot has returned. -/
def working : Pool ℕ DevStore (Outcome ActivationError Reply) (Except ActivationError Unit) :=
  (Pool.launch (life.booting s).store fun i => (life.work i).program.run).exec perform
    (if (life.booted s).isSome then life.schedule else [])

def after : DevStore := (life.working s).store

/-- The boot of this process has succeeded. -/
def Converged : Prop := ∃ blocks, life.booted s = some (.ok blocks)

/-- Every call of the process is as `P` says. -/
structure Meets (P : CallProp) : Prop where
  booting : Along (fun _ m => P m.call m.before m.answer) (life.booting s).history
  working : Along (fun _ m => P m.call m.before m.answer) (life.working s).history

end Life

/-- The store after a number of lives. -/
def outlived (start : DevStore) (lives : List Life) : DevStore :=
  lives.foldl (fun s life => life.after s) start

/-- Every call of every life is as `P` says. -/
def Meets (P : CallProp) : DevStore → List Life → Prop
  | _, [] => True
  | s, life :: lives => life.Meets s P ∧ Meets P (life.after s) lives

theorem meets_append {P : CallProp} {start : DevStore} {past later : List Life} :
    Meets P start (past ++ later) ↔ Meets P start past ∧ Meets P (outlived start past) later := by
  induction past generalizing start with
  | nil => exact (true_and _).symm ▸ Iff.rfl
  | cons life past ih => exact (and_congr_right fun _ => ih).trans and_assoc.symm

theorem work_leads {settled : Prop} (work : Work) :
    (serving false settled).Leads (fun _ => false) (fun _ => True) work.program (fun _ _ => True)
      fun _ _ => True := by
  cases work with
  | request cause intent maintenance =>
    exact (request_leads rfl rfl rfl cause intent maintenance).bind (fun _ => stable_true)
      fun _ => leads_pure stable_true fun _ _ => trivial
  | pass turns =>
    exact maintain_leads (P := fun _ _ => True) (fun _ _ => stable_true)
      (fun _ _ _ _ _ => trivial) rfl rfl turns

theorem sparesActive_of_promised {alone : Bool} {c : DevCall} {s : DevStore}
    {answer : Outcome ActivationError Reply c} (h : Promised alone c s) :
    SparesActive c s answer := by
  rintro ids rfl id hid hactive
  obtain ⟨row, hrow, hstatus⟩ := Option.map_eq_some_iff.mp hactive
  have hsettled := h id hid row hrow
  rw [hstatus] at hsettled
  cases hsettled

theorem along_sparesActive {ι : Type} {alone : Bool} {settled : Prop}
    {past : History ι DevStore (Outcome ActivationError Reply)}
    (h : Along (fun _ m => (serving alone settled).keeps m.before ∧
      (serving alone settled).promise m.call m.before) past) :
    Along (fun _ m => SparesActive m.call m.before m.answer) past :=
  h.mono fun _ _ hm => sparesActive_of_promised hm.2

theorem along_admitted {ι : Type} {alone : Bool} {settled : Prop}
    {past : History ι DevStore (Outcome ActivationError Reply)}
    (hfree : Along (fun _ m => TakenFree m.call m.before m.answer) past)
    (hunbroken : Along (fun _ m => Unbroken m.call m.before m.answer) past) :
    Along (fun _ m => (serving alone settled).Admitted m) past :=
  (hfree.and hunbroken).mono fun _ _ hm => ⟨hm.2, hm.1⟩

/-- One life: what it finds can be finished, and so can what it leaves. -/
theorem Life.serves (life : Life) {s : DevStore} (hs : Recoverable s.generations s.journal)
    (hfree : life.Meets s TakenFree) (hunbroken : life.Meets s Unbroken) :
    Recoverable (life.after s).generations (life.after s).journal ∧
      (life.Converged s → (life.after s).held .activation = false → (life.after s).Serving) ∧
      life.Meets s SparesActive := by
  have hstart : (serving true False).keeps s.restarted := ⟨hs, nofun⟩
  have hboot := exec_withstands (C := serving true False)
    (fun i j hij => absurd (Subsingleton.elim i j) hij) hstart
    (fun _ : Unit => install_leads life.seed life.turns _ trivial)
    (life.boot.map fun chance => ((), chance)) (along_admitted hfree.booting hunbroken.booting)
  obtain ⟨hkeeps, hpromise, hdone⟩ := hboot
  have hagrees : life.Converged s → (life.booting s).store.Serving := by
    rintro ⟨blocks, hblocks⟩
    unfold Life.booted at hblocks
    split at hblocks
    · rename_i result hresult
      obtain ⟨mine, -, hpost⟩ := hdone () result hresult
      rw [Option.some.inj hblocks] at hpost
      exact hpost
    · cases hblocks
  have hwork := exec_withstands (C := serving false (life.Converged s))
    (fun i j _ => serving_sound _) ⟨hkeeps.1, fun _ hconverged _ => hagrees hconverged⟩
    (fun i => work_leads (life.work i) _ trivial)
    (if (life.booted s).isSome then life.schedule else [])
    (along_admitted hfree.working hunbroken.working)
  exact ⟨hwork.1.1, hwork.1.2 rfl, along_sparesActive hpromise, along_sparesActive hwork.2.1⟩

theorem recoverable_outlived {start : DevStore} (hstart : Recoverable start.generations start.journal)
    (lives : List Life) (hfree : Meets TakenFree start lives)
    (hunbroken : Meets Unbroken start lives) :
    Recoverable (outlived start lives).generations (outlived start lives).journal := by
  induction lives generalizing start with
  | nil => exact hstart
  | cons life lives ih =>
    exact ih (life.serves hstart hfree.1 hunbroken.1).1 hfree.2 hunbroken.2

theorem DevStore.Fresh.recoverable {s : DevStore} (h : s.Fresh) :
    Recoverable s.generations s.journal := by
  rw [h.generations, h.journal]
  exact ⟨nofun, nofun, .inl fun _ => iff_of_false nofun nofun⟩

/-- Whatever an instance has lived through: once a boot has succeeded, the active rows are the
generation that the journal names whenever no activation runs, and no active row is deleted. -/
theorem one_serving_generation {start : DevStore} (hstart : start.Fresh) (past : List Life)
    (life : Life) (hfree : Meets TakenFree start (past ++ [life]))
    (hunbroken : Meets Unbroken start (past ++ [life])) :
    let s := outlived start past
    (life.Converged s → (life.after s).held .activation = false → (life.after s).Serving) ∧
      life.Meets s SparesActive := by
  intro s
  obtain ⟨hfree, hlast, -⟩ := meets_append.mp hfree
  obtain ⟨hunbroken, hlast', -⟩ := meets_append.mp hunbroken
  exact (life.serves (recoverable_outlived hstart.recoverable past hfree hunbroken) hlast hlast').2

/-! ### A commit that fails -/

theorem agrees_iff (ledger : Generations) (journal : RuntimeState) : Agrees ledger journal ↔
    (∀ row ∈ ledger.rows, row.status = .active → journal.activeGenerationId = some row.id) ∧
      journal.activeGenerationId.all (fun id => ledger.statusOf id = some .active) = true := by
  constructor
  · intro h
    refine ⟨fun row hrow hstatus => (h row.id).mpr ?_, ?_⟩
    · unfold Generations.statusOf
      rw [get?_of_mem hrow, Option.map_some, hstatus]
    · rw [Option.all_eq_true]
      exact fun id hid => decide_eq_true ((h id).mp hid)
  · rintro ⟨hrows, hjournal⟩ id
    refine ⟨fun hid => ?_, fun hid => ?_⟩
    · rw [hid] at hjournal
      simpa using hjournal
    · obtain ⟨row, hrow, hstatus⟩ := Option.map_eq_some_iff.mp hid
      obtain ⟨hmem, hrowId⟩ := Table.get?_eq_some_iff.mp hrow
      rw [hrows row hmem hstatus]
      exact congrArg some hrowId

instance : DecidablePred DevStore.Serving := fun _ => decidable_of_iff _ (agrees_iff _ _).symm

instance (c : DevCall) (s : DevStore) (answer : Outcome ActivationError Reply c) :
    Decidable (TakenFree c s answer) :=
  match h : c.lockEffect with
  | some (lock, true) => decidable_of_iff (s.held lock = false) <| by
    unfold TakenFree
    simp [h]
  | some (lock, false) | none => isTrue fun lock hlock => by simp [h] at hlock

/-- The calls that ask whether content is there. -/
def DevCall.asks : DevCall → Bool
  | .blobExists _ | .artifactIndex => true
  | _ => false

theorem unbroken_of_answered {c : DevCall} {s : DevStore}
    {answer : Outcome ActivationError Reply c}
    (h : s.Serving ∨ c.lockEffect = none ∧ c.asks = false ∧ answer.isOk = true) :
    Unbroken c s answer := by
  refine h.imp_right fun ⟨heffect, hasks, hok⟩ => ⟨?_, fun _ => ?_⟩
  · rintro rfl
    cases heffect
  · cases answer with
    | error e => cases hok
    | ok reply =>
      refine ⟨reply, rfl, ?_⟩
      cases c <;> trivial

/-- An instance that nothing was published on. -/
def blank : DevStore where
  generations := .empty
  journal := ⟨none, none, .idle, 0⟩
  builds := .empty
  llms := ⟨none, none⟩
  folder := .empty
  blobs := ∅
  artifacts := ∅
  workspace := .empty
  runtime := ⟨[], none⟩
  held := fun _ => false
  ids := []
  clock := 0

theorem blank_fresh : blank.Fresh := ⟨rfl, rfl⟩

/-- A boot, and one activation whose call number `failing` fails. -/
def firstEdit (failing : ℕ) : Life where
  seed := none
  turns := 1
  boot := List.replicate 6 ⟨false, 1, 1, true⟩
  work := fun _ => .request .siteWrite .siteOnly .deferred
  schedule := (List.range 16).map fun n => (0, ⟨n == failing, 1, 1, true⟩)

/-- The journal write of the commit fails: the row is active, and the journal names none. -/
theorem one_serving_generation_cutCommit :
    blank.Fresh ∧ Meets TakenFree blank [firstEdit 13] ∧ (firstEdit 13).Converged blank ∧
      ((firstEdit 13).after blank).held .activation = false ∧
      ¬ ((firstEdit 13).after blank).Serving := by
  refine ⟨blank_fresh, ⟨⟨?_, ?_⟩, trivial⟩, ⟨[], rfl⟩, rfl, ?_⟩
  · decide +kernel
  · decide +kernel
  · decide +kernel

theorem firstEdit_meets : (firstEdit 16).Meets blank fun c s answer =>
    s.Serving ∨ c.lockEffect = none ∧ c.asks = false ∧ answer.isOk = true := by
  constructor <;> decide +kernel

theorem firstEdit_takenFree : (firstEdit 16).Meets blank TakenFree := by
  constructor <;> decide +kernel

theorem Life.Meets.mono {P P' : CallProp} {life : Life} {s : DevStore} (h : life.Meets s P)
    (hP : ∀ c s answer, P c s answer → P' c s answer) : life.Meets s P' :=
  ⟨h.booting.mono fun _ _ hm => hP _ _ _ hm, h.working.mono fun _ _ hm => hP _ _ _ hm⟩

theorem one_serving_generation_firstEdit :
    ((firstEdit 16).Converged blank → ((firstEdit 16).after blank).held .activation = false →
      ((firstEdit 16).after blank).Serving) ∧ (firstEdit 16).Meets blank SparesActive :=
  one_serving_generation blank_fresh [] (firstEdit 16) ⟨firstEdit_takenFree, trivial⟩
    ⟨firstEdit_meets.mono fun _ _ _ h => unbroken_of_answered h, trivial⟩

end Dev
