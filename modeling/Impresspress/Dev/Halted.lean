import Impresspress.Concurrent.Walks
import Impresspress.Dev.Commit
import Impresspress.Dev.FailedActivation
import Impresspress.Dev.Halfway

/-!
# Activations that are stopped

A process that ends in the middle of an activation leaves what its calls so far have done. Between
any two calls the journal tells how far the activation had come: it names the new generation from
before the first step until the commit, and the folder is between the two sites for as long.

## Main definitions

* `Dev.Settled`: nothing is going on, on an instance that serves a generation or that serves none.
* `Dev.Halted`: what a stopped activation leaves.

## Main results

* `Dev.activate_halted`: an activation that is stopped anywhere leaves no more than that.
-/

namespace Dev

open Concurrent Concurrent.Fallible

/-- The ledger has the manifest under the id. -/
def Generations.Stores (ledger : Generations) (id : ℕ) (manifest : GenerationManifest) : Prop :=
  ∃ row, ledger.get? id = some row ∧ row.manifest = some manifest

/-- The instance is at rest: it serves `previous`, or it has published nothing but, at most, the
sandbox's own file. -/
def Settled (s : DevStore) : Option LoadedGeneration → Prop
  | some generation => AtRest s generation
  | none => s.journal.activeGenerationId = none ∧ s.journal.desiredGenerationId = none ∧
    s.journal.activationPhase = .idle ∧
    (s.llms.publishedSha256 = none ∨ s.llms.publishedSha256 = s.llms.text) ∧
    ∀ path, s.folder.lookup path = (publishedBefore none s.llms.publishedSha256).lookup path

/-- The site that an activation composes. -/
def composedSite (s : DevStore) : ActivationIntent → SiteManifest
  | .siteOnly => s.workspace.siteManifest
  | .blockSet site _ => site.getD s.workspace.siteManifest
  | .rollback target => target.site
  | .seed manifest => manifest.site

/-- The journal names the new generation as the one to be activated over `previous`. -/
structure UnderWay (previous : Option LoadedGeneration) (id : ℕ) (new : GenerationManifest)
    (s : DevStore) : Prop where
  active : s.journal.activeGenerationId = previous.map (·.1.id)
  desired : s.journal.desiredGenerationId = some id
  stored : s.generations.Stores id new
  kept : ∀ generation ∈ previous, s.generations.Stores generation.1.id generation.2
  other : ∀ generation ∈ previous, generation.1.id ≠ id
  between : Between (previous.map (·.2.site)) new.site s.folder s.llms
  own : previous = none → ¬ OwnText new.site s.llms.text

/-- The journal names the generation as the one that is live, and its site is in the folder. -/
structure Committed (id : ℕ) (new : GenerationManifest) (s : DevStore) : Prop where
  active : s.journal.activeGenerationId = some id
  desired : s.journal.desiredGenerationId = none
  phase : s.journal.activationPhase = .idle
  stored : ∀ row, s.generations.get? id = some row → row.manifest = some new
  folder : ∀ path, s.folder.lookup path = contents (publishedView new.site s.llms.text) path

/-- What an activation of a site over `previous` leaves when it is stopped. -/
inductive Halted (previous : Option LoadedGeneration) (s : DevStore) : Prop
  | before (h : Settled s previous)
  | underWay {id : ℕ} {new : GenerationManifest} (h : UnderWay previous id new s)
  | committed {id : ℕ} {new : GenerationManifest} (h : Committed id new s)

/-! ## Frames -/

section Frames

variable {s s' : DevStore} {previous : Option LoadedGeneration} {id : ℕ}
  {new : GenerationManifest}

theorem Generations.stores_setStatus {ledger ledger' : Generations} {id' : ℕ}
    {status : GenerationStatus} (h : ledger.setStatus id' status = some ledger')
    {manifest : GenerationManifest} :
    ledger'.Stores id manifest ↔ ledger.Stores id manifest := by
  unfold Generations.Stores
  rw [get?_setStatus h]
  by_cases heq : id = id'
  · rw [if_pos heq, heq]
    cases ledger.get? id' with
    | none => simp
    | some row => simp
  · rw [if_neg heq]

theorem Generations.Stores.insertRow {ledger ledger' : Generations} {manifest : GenerationManifest}
    (h : ledger.Stores id manifest) {row : GenerationRow} (hne : id ≠ row.id)
    (hinsert : ledger.insert row = some ledger') : ledger'.Stores id manifest := by
  obtain ⟨stored, hstored, hmanifest⟩ := h
  exact ⟨stored, by rw [get?_insertRow hinsert, if_neg hne, hstored], hmanifest⟩

/-- The calls that move neither the journal nor the folder, and lose no row. -/
def DevCall.keepsHalfway : DevCall → Bool
  | .setStatus .. | .setBuildStatus .. | .rebuild _ | .restorePrevious => true
  | c => c.reads

theorem UnderWay.frame (h : UnderWay previous id new s)
    (hactive : s'.journal.activeGenerationId = s.journal.activeGenerationId)
    (hdesired : s'.journal.desiredGenerationId = s.journal.desiredGenerationId)
    (hstores : ∀ id manifest, s.generations.Stores id manifest → s'.generations.Stores id manifest)
    (hfolder : s'.folder = s.folder) (hllms : s'.llms = s.llms) : UnderWay previous id new s' where
  active := hactive.trans h.active
  desired := hdesired.trans h.desired
  stored := hstores _ _ h.stored
  kept := fun generation hgeneration => hstores _ _ (h.kept generation hgeneration)
  other := h.other
  between := by
    rw [hfolder, hllms]
    exact h.between
  own := by
    rw [hllms]
    exact h.own

/-- What a call of that kind leaves alone. -/
theorem keepsHalfway_perform {c : DevCall} (hc : c.keepsHalfway) (chance : Chance) (s : DevStore) :
    (perform chance c s).2.journal = s.journal ∧ (perform chance c s).2.folder = s.folder ∧
      (perform chance c s).2.llms = s.llms ∧ ∀ id manifest,
        (perform chance c s).2.generations.Stores id manifest ↔
          s.generations.Stores id manifest := by
  by_cases hreads : c.reads
  · rw [perform_reads hreads]
    exact ⟨rfl, rfl, rfl, fun _ _ => Iff.rfl⟩
  cases hanswer : perform chance c s with
  | mk outcome s' =>
    cases outcome with
    | error e =>
      rw [perform_error hanswer]
      exact ⟨rfl, rfl, rfl, fun _ _ => Iff.rfl⟩
    | ok reply =>
      have h := answer_of_perform hanswer
      cases c with
      | setStatus id status =>
        simp only [answer] at h
        cases hset : (s.after chance.elapsed).generations.setStatus id status with
        | none =>
          rw [hset] at h
          cases h
        | some ledger =>
          rw [hset] at h
          cases h
          exact ⟨rfl, rfl, rfl, fun _ _ => Generations.stores_setStatus hset⟩
      | rebuild blocks =>
        simp only [answer] at h
        split at h <;> cases h
        exact ⟨rfl, rfl, rfl, fun _ _ => Iff.rfl⟩
      | setBuildStatus id status =>
        simp only [answer] at h
        split at h <;> cases h
        exact ⟨rfl, rfl, rfl, fun _ _ => Iff.rfl⟩
      | restorePrevious =>
        simp only [answer] at h
        split at h <;> cases h
        exact ⟨rfl, rfl, rfl, fun _ _ => Iff.rfl⟩
      | _ => exact absurd hc hreads

theorem UnderWay.after {c : DevCall} (hc : c.keepsHalfway) (chance : Chance)
    (h : UnderWay previous id new s) : UnderWay previous id new (perform chance c s).2 := by
  obtain ⟨hjournal, hfolder, hllms, hstores⟩ := keepsHalfway_perform hc chance s
  exact h.frame (by rw [hjournal]) (by rw [hjournal]) (fun id manifest => (hstores id manifest).mpr)
    hfolder hllms

/-- A journal write that names the same generations. -/
theorem UnderWay.written (h : UnderWay previous id new s) (state : RuntimeState)
    (hactive : state.activeGenerationId = previous.map (·.1.id))
    (hdesired : state.desiredGenerationId = some id) (chance : Chance) :
    UnderWay previous id new (perform chance (.writeState state) s).2 := by
  unfold perform
  dsimp only
  split
  · exact h.frame rfl rfl (fun _ _ h => h) rfl rfl
  · exact ⟨hactive, hdesired, h.stored, h.kept, h.other, h.between, h.own⟩

/-- A publish in either direction leaves the activation under way. -/
theorem UnderWay.half {prev : Option SiteManifest} {next : SiteManifest}
    (h : UnderWay previous id new s) (hhalf : Half s prev next s')
    (hbetween : Between (previous.map (·.2.site)) new.site s'.folder s'.llms) :
    UnderWay previous id new s' := by
  have hsame := hhalf.same
  have hllms := hhalf.llms
  refine ⟨?_, ?_, ?_, ?_, h.other, hbetween, ?_⟩
  · rw [hsame]
    exact h.active
  · rw [hsame]
    exact h.desired
  · rw [hsame]
    exact h.stored
  · rw [hsame]
    exact h.kept
  · rw [hllms]
    exact h.own

theorem UnderWay.finished {prev : Option SiteManifest} {next : SiteManifest}
    (h : UnderWay previous id new s) (hfinished : Finished s prev next s')
    (hbetween : Between (previous.map (·.2.site)) new.site s'.folder s'.llms) :
    UnderWay previous id new s' := by
  have hsame := hfinished.same
  have htext := hfinished.text
  refine ⟨?_, ?_, ?_, ?_, h.other, hbetween, ?_⟩
  · rw [hsame]
    exact h.active
  · rw [hsame]
    exact h.desired
  · rw [hsame]
    exact h.stored
  · rw [hsame]
    exact h.kept
  · rw [htext]
    exact h.own

end Frames

/-! ## From the journal's first write to the commit -/

section Staged

variable {s : DevStore} {previous : Option LoadedGeneration} {id : ℕ} {new : GenerationManifest}
  {state : RuntimeState} {staged : Staged} {α : Type}

/-- Calls that keep the activation under way. -/
theorem UnderWay.only {p : Task α} (h : UnderWay previous id new s)
    (hp : p.run.Only fun c => c.keepsHalfway = true) :
    Passes perform (fun _ _ => Halted previous) p s (fun _ => UnderWay previous id new)
      fun _ => UnderWay previous id new :=
  (passes_only hp (fun chance _ _ hc h => h.after hc chance) h).mono
    (fun _ _ _ h => .underWay h) (fun _ _ h => h) fun _ _ h => h

theorem UnderWay.journals (h : UnderWay previous id new s)
    (hstate : state.activeGenerationId = previous.map (·.1.id)) (phase : ActivationPhase) :
    Reaches perform (fun _ _ => Halted previous) (journal state id phase) s
      fun _ => UnderWay previous id new :=
  reaches_call (fun _ => .underWay h) fun chance _ _ =>
    h.written { state with desiredGenerationId := some id, activationPhase := phase } hstate rfl
      chance

theorem UnderWay.refuses (h : UnderWay previous id new s) {e : ActivationError}
    {P : α → DevStore → Prop} (id' : ℕ) (state' : RuntimeState) :
    Reaches perform (fun _ _ => Halted previous) (refuse id' state' e : Task α) s P := by
  refine reaches_bind (M := fun _ _ => True) ?_ fun _ _ _ => reaches_throw
  refine reaches_bind (h.only (only_call rfl)).reaches fun _ _ h₁ => ?_
  exact reaches_call (fun _ => .underWay h₁) fun _ _ _ => trivial

theorem missingBlobs_only (present shas : List Sha) :
    (missingBlobs present shas).run.Only fun c => c.keepsHalfway = true := by
  induction shas with
  | nil => exact only_pure _
  | cons sha shas ih =>
    unfold missingBlobs
    split
    · exact ih
    · exact only_bind (only_call rfl) fun _ => only_bind ih fun _ => only_pure _

theorem missingContent_only (manifest : GenerationManifest) (site : Option SiteManifest) :
    (missingContent manifest site).run.Only fun c => c.keepsHalfway = true := by
  refine only_bind (missingBlobs_only _ _) fun _ => ?_
  split
  · exact only_pure _
  · exact only_bind (only_call rfl) fun _ => only_pure _

theorem UnderWay.rebuilds (h : UnderWay previous id new s) (hid : staged.row.id = id)
    (hstate : state.activeGenerationId = previous.map (·.1.id)) :
    Reaches perform (fun _ _ => Halted previous) (staged.buildRuntime state) s
      fun _ => UnderWay previous id new := by
  unfold Staged.buildRuntime
  rw [hid]
  split
  · refine reaches_bind (h.journals hstate _) fun _ _ h₁ => ?_
    exact reaches_attempt (h₁.only (only_call rfl)) (fun _ _ h₂ => reaches_pure h₂)
      fun _ _ h₂ => h₂.refuses _ _
  · exact reaches_pure h

/-- A call that fails and takes no time. -/
def fault : Chance := ⟨true, 0, 0, true⟩

theorem fault_fails (c : DevCall) (s : DevStore) (hc : c.publishes = true) :
    ∃ e, perform fault c s = (.error e, s) := by
  refine ⟨c.failure, perform_of_fails rfl ?_ s⟩
  cases c <;> first | rfl | cases hc

theorem publishSite_half (prev : Option SiteManifest) (next : SiteManifest) (s : DevStore) :
    Passes perform (fun _ _ => Half s prev next) (publishSite prev next) s
      (fun _ => Finished s prev next) fun _ => Half s prev next :=
  ((publishSite_attains s prev next).passes (publishSite_prompt prev next) fault
    fun c s => fault_fails c s).mono (fun _ _ _ ⟨_, _, h⟩ => h) (fun _ _ h => h)
    fun _ _ ⟨_, _, h⟩ => h

/-- The new site is published over the old one. -/
theorem UnderWay.publishes (h : UnderWay previous id new s) :
    Passes perform (fun _ _ => Halted previous)
      (publishSite (previous.map (·.2.site)) new.site) s
      (fun _ s' => UnderWay previous id new s' ∧
        ∀ path, s'.folder.lookup path = contents (publishedView new.site s'.llms.text) path)
      fun _ => UnderWay previous id new := by
  have hhalf : ∀ s', Half s (previous.map (·.2.site)) new.site s' → UnderWay previous id new s' :=
    fun s' hhalf => h.half hhalf (h.between.forward hhalf)
  refine (publishSite_half _ _ s).mono (fun _ _ s' h' => .underWay (hhalf s' h'))
    (fun _ s' hfinished => ?_) fun _ s' h' => hhalf s' h'
  have hfolder := h.between.published hfinished
  refine ⟨h.finished hfinished (between_of_published ?_ hfolder), hfolder⟩
  obtain ⟨done, -, -, hllms⟩ := hfinished
  rw [hllms]

/-- The old site is published again. -/
theorem UnderWay.takesBack (h : UnderWay previous id new s) :
    Passes perform (fun _ _ => Halted previous)
      (publishSite (some new.site) ((previous.map (·.2.site)).getD [])) s
      (fun _ => UnderWay previous id new) fun _ => UnderWay previous id new := by
  have hhalf : ∀ s', Half s (some new.site) ((previous.map (·.2.site)).getD []) s' →
      UnderWay previous id new s' := fun s' hhalf => h.half hhalf (h.between.backward hhalf)
  refine (publishSite_half _ _ s).mono (fun _ _ s' h' => .underWay (hhalf s' h'))
    (fun _ s' hfinished => ?_) fun _ s' h' => hhalf s' h'
  refine h.finished hfinished (h.between.undone (fun hnone => h.own ?_) hfinished)
  exact Option.map_eq_none_iff.mp hnone

theorem UnderWay.restores (h : UnderWay previous id new s) (rebuilt : Bool) :
    Passes perform (fun _ _ => Halted previous) (restore new previous rebuilt) s
      (fun _ => UnderWay previous id new) fun _ => UnderWay previous id new := by
  refine passes_bind (M := fun _ => UnderWay previous id new) ?_ fun _ s₁ h₁ => ?_
  · unfold restoreRuntime
    split
    · exact h.only (only_bind (only_attempt (only_call rfl)) fun _ => only_pure _)
    · exact passes_pure h
  · exact passes_attempt h₁.takesBack (fun _ _ h₂ => passes_pure h₂) fun _ _ h₂ => passes_pure h₂

/-- The staged row and what it would succeed, as an activation has them at hand. -/
structure Loads (staged : Staged) (previous : Option LoadedGeneration) (id : ℕ)
    (new : GenerationManifest) : Prop where
  row : staged.row.id = id
  manifest : staged.manifest = new
  previous : staged.previous = previous

theorem UnderWay.publish (h : UnderWay previous id new s) (hloads : Loads staged previous id new)
    (hstate : state.activeGenerationId = previous.map (·.1.id)) :
    Reaches perform (fun _ _ => Halted previous) (staged.publish state) s
      fun _ s' => UnderWay previous id new s' ∧
        ∀ path, s'.folder.lookup path = contents (publishedView new.site s'.llms.text) path := by
  unfold Staged.publish
  rw [hloads.row, hloads.manifest, hloads.previous]
  refine reaches_bind (h.journals hstate _) fun _ s₁ h₁ => ?_
  refine reaches_attempt h₁.publishes (fun _ _ h₂ => reaches_pure h₂) fun e s₂ h₂ => ?_
  exact reaches_bind (h₂.restores _).reaches fun _ _ h₃ => h₃.refuses _ _

/-- The writes of a commit. -/
theorem UnderWay.commits (h : UnderWay previous id new s)
    (hfolder : ∀ path, s.folder.lookup path = contents (publishedView new.site s.llms.text) path)
    (hrow : staged.row.id = id) :
    Reaches perform (fun _ _ => Halted previous) (staged.commit state) s
      fun _ => Committed id new := by
  let J : DevStore → Prop := fun s' => UnderWay previous id new s' ∧
    ∀ path, s'.folder.lookup path = contents (publishedView new.site s'.llms.text) path
  have honly : ∀ {p : Task Unit} {s₁}, p.run.Only (fun c => c.keepsHalfway = true) → J s₁ →
      Reaches perform (fun _ _ => Halted previous) p s₁ fun _ => J := by
    intro p s₁ hp h₁
    refine ((passes_only hp (fun chance c s' hc h' => ⟨h'.1.after hc chance, fun path => ?_⟩)
      h₁).mono (fun _ _ _ h => .underWay h.1) (fun _ _ h => h) fun _ _ h => h).reaches
    obtain ⟨-, hfolder', hllms', -⟩ := keepsHalfway_perform hc chance s'
    rw [hfolder', hllms']
    exact h'.2 path
  refine reaches_bind (honly (only_call rfl) ⟨h, hfolder⟩) fun _ s₁ h₁ => ?_
  refine reaches_bind (M := fun _ => J) ?_ fun _ s₂ h₂ => ?_
  · unfold Staged.supersede
    split
    · exact honly (only_call rfl) h₁
    · exact reaches_pure h₁
  · refine reaches_call (fun _ => .underWay h₂.1) fun chance reply hreply => ?_
    have hanswer := (Prod.ext_iff.mp (answer_of_perform (Prod.ext hreply rfl))).2
    rw [← hanswer]
    obtain ⟨row, hget, hmanifest⟩ := h₂.1.stored
    exact ⟨congrArg some hrow, rfl, rfl, fun row' hrow' => by
      cases hget.symm.trans hrow'
      exact hmanifest, h₂.2⟩

/-- The calls that follow a commit: they move neither the journal nor the folder, and add no row. -/
def DevCall.followsCommit (c : DevCall) : Bool := c.maintains || c.reads

theorem Committed.after {c : DevCall} (hc : c.followsCommit) (chance : Chance)
    (h : Committed id new s) : Committed id new (perform chance c s).2 := by
  by_cases hreads : c.reads
  · rw [perform_reads hreads]
    exact ⟨h.active, h.desired, h.phase, h.stored, h.folder⟩
  have hmaintains : c.maintains = true := by
    simpa [DevCall.followsCommit, hreads] using hc
  cases hanswer : perform chance c s with
  | mk outcome s' =>
    cases outcome with
    | error e =>
      rw [perform_error hanswer]
      exact ⟨h.active, h.desired, h.phase, h.stored, h.folder⟩
    | ok reply =>
      have hstore := (Prod.ext_iff.mp (answer_of_perform hanswer)).2
      dsimp only at hstore ⊢
      rw [← hstore]
      cases c with
      | deleteMany ids =>
        refine ⟨h.active, h.desired, h.phase, fun row hrow => h.stored row ?_, h.folder⟩
        change (Generations.deleteMany _ ids).get? id = some row at hrow
        rw [get?_deleteMany] at hrow
        split at hrow
        · cases hrow
        · exact hrow
      | deleteBuild _ | deleteForArtifact _ | deleteBlob _ | deleteArtifact _ | saveWorkspace _
      | lock _ | unlock _ => exact ⟨h.active, h.desired, h.phase, h.stored, h.folder⟩
      | _ => first | exact absurd rfl hreads | cases hmaintains

/-- What follows a commit. -/
theorem Committed.only {p : Task α} (h : Committed id new s)
    (hp : p.run.Only fun c => c.followsCommit = true) :
    Passes perform (fun _ _ => Halted previous) p s (fun _ => Committed id new)
      fun _ => Committed id new :=
  (passes_only hp (fun chance _ _ hc h => h.after hc chance) h).mono
    (fun _ _ _ h => .committed h) (fun _ _ h => h) fun _ _ h => h

theorem maintain_only (turns : ℕ) : (maintain turns).run.Only fun c => c.maintains = true := by
  refine holding_only rfl rfl (only_bind (only_attempt (prune_only turns)) fun pruned => ?_)
  cases pruned with
  | error e => exact only_pure _
  | ok rows => exact only_bind (only_attempt collect_only) fun _ => only_pure _

theorem scheduleMaintenance_only (maintenance : Maintenance) :
    (scheduleMaintenance maintenance).run.Only fun c => c.followsCommit = true := by
  cases maintenance with
  | deferred => exact only_pure _
  | «inline» turns =>
    refine (maintain_only turns).mono fun c hc => ?_
    rw [DevCall.followsCommit, hc, Bool.true_or]

theorem adoptIfRollback_only (intent : ActivationIntent) (id : ℕ) (site : SiteManifest) :
    (adoptIfRollback intent id site).run.Only fun c => c.followsCommit = true := by
  cases intent with
  | rollback target =>
    refine only_bind (only_attempt (holding_only rfl rfl
      (only_bind (only_call rfl) fun _ => only_call rfl))) fun adopted => ?_
    cases adopted with
    | ok _ => exact only_pure _
    | error e => exact only_throw _
  | siteOnly | blockSet _ _ | seed _ => exact only_pure _

/-- A staged generation is driven to live. -/
theorem activateStaged_halted (hloads : Loads staged previous id new)
    (hstate : state.activeGenerationId = previous.map (·.1.id)) (site : Option SiteManifest)
    (maintenance : Maintenance)
    (hstart : Halted previous s)
    (hwritten : ∀ chance phase s', perform chance (.writeState
      { state with desiredGenerationId := some id, activationPhase := phase }) s = (.ok (), s') →
        UnderWay previous id new s') :
    Reaches perform (fun _ _ => Halted previous) (activateStaged staged site state maintenance) s
      fun _ => Committed id new := by
  have hrow := hloads.row
  refine reaches_bind (M := fun _ => UnderWay previous id new) ?_ fun _ s₁ h₁ => ?_
  · unfold Staged.validate journal
    rw [hrow, hloads.manifest]
    refine reaches_bind (reaches_call (fun _ => hstart) fun chance reply hreply =>
      hwritten chance _ _ (Prod.ext hreply rfl)) fun _ s₁ h₁ => ?_
    refine reaches_bind (h₁.only (only_call rfl)).reaches fun _ s₂ h₂ => ?_
    refine reaches_bind (h₂.only (missingContent_only _ _)).reaches fun missing s₃ h₃ => ?_
    split
    · exact reaches_pure h₃
    · exact h₃.refuses _ _
  refine reaches_bind (h₁.only (only_call rfl)).reaches fun _ s₂ h₂ => ?_
  refine reaches_bind (h₂.rebuilds hrow hstate) fun _ s₃ h₃ => ?_
  refine reaches_bind (h₃.publish hloads hstate) fun _ s₄ h₄ => ?_
  refine reaches_bind (h₄.1.commits h₄.2 hrow) fun _ s₅ h₅ => ?_
  refine reaches_bind (h₅.only (scheduleMaintenance_only maintenance)).reaches fun _ s₆ h₆ => ?_
  exact (h₆.only (only_call rfl)).reaches

end Staged

/-! ## Up to the journal's first write -/

section Beginning

variable {start s s' : DevStore} {previous : Option LoadedGeneration}

/-- The activation that began at `start` has changed nothing yet but the ledger, the ids, the locks
and the time. -/
structure Begun (start : DevStore) (previous : Option LoadedGeneration) (s : DevStore) : Prop where
  settled : Settled s previous
  journal : s.journal = start.journal
  workspace : s.workspace = start.workspace
  llms : s.llms = start.llms

theorem Begun.frame (h : Begun start previous s) {s' : DevStore}
    (hsame : s' = { s with
      generations := s'.generations, held := s'.held, ids := s'.ids, clock := s'.clock })
    (hrows : ∀ generation ∈ previous, s.generations.get? generation.1.id = some generation.1 →
      s'.generations.get? generation.1.id = some generation.1)
    (hids : s.ids ⊆ s'.ids) : Begun start previous s' := by
  obtain ⟨hsettled, hjournal, hworkspace, hllms⟩ := h
  refine ⟨?_, ?_, ?_, ?_⟩
  · cases previous with
    | none =>
      rw [hsame]
      exact hsettled
    | some generation =>
      have hrow := hrows generation rfl hsettled.row
      have hdrawn := hids hsettled.drawn
      rw [hsame] at hrow hdrawn ⊢
      exact ⟨hsettled.serves, hsettled.record, hsettled.desired, hsettled.phase, hrow,
        hsettled.manifest, hsettled.status, hdrawn⟩
  · rw [hsame, hjournal]
  · rw [hsame, hworkspace]
  · rw [hsame, hllms]

theorem Begun.later (h : Begun start previous s) (elapsed : ℕ) :
    Begun start previous (s.after elapsed) := h.frame rfl (fun _ _ h => h) fun _ h => h

/-- A call that only looks. -/
theorem Begun.looks (h : Begun start previous s) {c : DevCall} (hc : c.reads)
    {P : Reply c → DevStore → Prop}
    (hP : ∀ reply elapsed chance, answer chance c (s.after elapsed) = (.ok reply, s.after elapsed) →
      P reply (s.after elapsed)) :
    Passes perform (fun _ _ => Halted previous) (call c) s P fun _ => Begun start previous := by
  have hlater : ∀ chance, (perform chance c s).2 = s.after chance.elapsed := fun chance => perform_reads hc chance s
  refine passes_call (fun _ => .before h.settled) (fun chance reply s' hanswer => ?_)
    fun chance e s' hanswer => ?_
  · have hs' := hlater chance
    rw [hanswer] at hs'
    subst hs'
    exact hP reply chance.elapsed chance (answer_of_perform hanswer)
  · have hs' := hlater chance
    rw [hanswer] at hs'
    subst hs'
    exact h.later chance.elapsed

theorem Settled.active (h : Settled s previous) :
    s.journal.activeGenerationId = previous.map (·.1.id) := by
  cases previous with
  | none => exact h.1
  | some generation => exact h.serves.active

theorem Begun.loadPrevious (h : Begun start previous s) :
    Passes perform (fun _ _ => Halted previous) (loadPrevious start.journal) s
      (fun loaded s' => loaded = previous ∧ Begun start previous s')
      fun _ => Begun start previous := by
  have hactive := h.settled.active
  rw [h.journal] at hactive
  unfold Dev.loadPrevious
  rw [hactive]
  cases previous with
  | none => exact passes_pure ⟨rfl, h⟩
  | some generation =>
    refine passes_bind (h.looks (c := .getGeneration generation.1.id) rfl
      (P := fun row s' => row = generation.1 ∧ Begun start (some generation) s')
      fun row elapsed chance hanswer => ⟨?_, h.later elapsed⟩) fun row s₁ h₁ => ?_
    · have hrow : (s.after elapsed).generations.get? generation.1.id = some generation.1 :=
        h.settled.row
      simp only [answer, hrow] at hanswer
      cases hanswer
      rfl
    · obtain ⟨rfl, hbegun⟩ := h₁
      rw [h.settled.manifest]
      exact passes_pure ⟨rfl, hbegun⟩

theorem Begun.compose (h : Begun start previous s) (intent : ActivationIntent) :
    Passes perform (fun _ _ => Halted previous) (compose intent previous) s
      (fun manifest s' => manifest.site = composedSite start intent ∧ Begun start previous s')
      fun _ => Begun start previous := by
  have hsite : Passes perform (fun _ _ => Halted previous) workspaceSite s
      (fun site s' => site = start.workspace.siteManifest ∧ Begun start previous s')
      fun _ => Begun start previous := by
    refine passes_bind (h.looks (c := .loadWorkspace) rfl
      (P := fun ws s' => ws = start.workspace ∧ Begun start previous s')
      fun ws elapsed chance hanswer => ⟨?_, h.later elapsed⟩) fun ws s₁ h₁ => ?_
    · cases hanswer
      exact h.workspace
    · exact passes_pure ⟨congrArg Workspace.siteManifest h₁.1, h₁.2⟩
  cases intent with
  | siteOnly => exact passes_bind hsite fun _ _ h₁ => passes_pure h₁
  | blockSet site blocks =>
    cases site with
    | some site => exact passes_pure ⟨rfl, h⟩
    | none => exact passes_bind hsite fun _ _ h₁ => passes_pure h₁
  | rollback target => exact passes_pure ⟨rfl, h⟩
  | seed manifest => exact passes_pure ⟨rfl, h⟩

theorem Begun.locks (h : Begun start previous s) (lock : Lock) (chance : Chance) :
    Begun start previous (perform chance (.lock lock) s).2 :=
  h.frame rfl (fun _ _ h => h) fun _ h => h

/-- The row of the new generation has been appended. -/
structure Appended (start : DevStore) (previous : Option LoadedGeneration) (site : SiteManifest)
    (loaded : LoadedGeneration) (s : DevStore) : Prop where
  begun : Begun start previous s
  stored : s.generations.Stores loaded.1.id loaded.2
  site : loaded.2.site = site
  other : ∀ generation ∈ previous, generation.1.id ≠ loaded.1.id

namespace Appended

variable {site : SiteManifest} {loaded : LoadedGeneration}

theorem unlocks (h : Appended start previous site loaded s) {lock : Lock} (chance : Chance) :
    Appended start previous site loaded (perform chance (.unlock lock) s).2 :=
  ⟨h.begun.frame rfl (fun _ _ h => h) fun _ h => h, h.stored, h.site, h.other⟩

theorem kept (h : Appended start previous site loaded s) :
    ∀ generation ∈ previous, s.generations.Stores generation.1.id generation.2 := by
  rintro generation rfl
  exact ⟨generation.1, h.begun.settled.row, h.begun.settled.manifest⟩

theorem between (h : Appended start previous site loaded s) :
    Between (previous.map (·.2.site)) loaded.2.site s.folder s.llms := by
  cases previous with
  | some generation =>
    exact ⟨mixed_of_left h.begun.settled.serves.folder, .inl h.begun.settled.record⟩
  | none =>
    obtain ⟨-, -, -, hrecord, hfolder⟩ := h.begun.settled
    refine ⟨fun path hpath => .inl ?_, ?_, hrecord⟩
    · rw [hfolder]
      exact lookup_publishedBefore_none_of_ne hpath
    · have hllms : s.folder.lookup llmsPath = s.llms.publishedSha256 :=
        (hfolder llmsPath).trans (lookup_publishedBefore_none _)
      rcases hrecord with hnone | htext
      · exact .inr (.inr ⟨hllms.trans hnone, hnone⟩)
      · exact .inr (.inl (hllms.trans htext))

theorem own (h : Appended start previous site loaded s)
    (hown : previous = none → ¬ OwnText site start.llms.text) :
    previous = none → ¬ OwnText loaded.2.site s.llms.text := by
  rw [h.site, h.begun.llms]
  exact hown

end Appended

theorem Begun.stageGeneration (h : Begun start previous s) (cause : GenerationCause)
    (intent : ActivationIntent) :
    Passes perform (fun _ _ => Halted previous) (stageGeneration cause intent previous) s
      (Appended start previous (composedSite start intent)) fun _ => Begun start previous := by
  refine passes_bind (h.compose intent) fun manifest s₁ h₁ => ?_
  obtain ⟨hsite, h₁⟩ := h₁
  refine passes_bind (M := fun id s' => Begun start previous s' ∧
    ∀ generation ∈ previous, generation.1.id ≠ id) ?_ fun id s₂ h₂ => ?_
  · refine passes_call (fun _ => .before h₁.settled) (fun chance id s' hanswer => ?_)
      fun chance e s' hanswer => by cases hanswer
    cases answer_of_perform hanswer
    refine ⟨h₁.frame rfl (fun _ _ h => h) fun _ h => List.mem_cons_of_mem _ h,
      fun generation hgeneration heq => ?_⟩
    refine freshId_not_mem (s₁.after chance.elapsed) chance.uuid (heq ▸ ?_)
    cases hgeneration
    exact h₁.settled.drawn
  · refine passes_bind (M := fun row s' => Appended start previous (composedSite start intent)
      (row, manifest) s') ?_ fun row s₃ h₃ => passes_pure h₃
    refine passes_call (fun _ => .before h₂.1.settled) (fun chance row s' hanswer => ?_)
      fun chance e s' hanswer => perform_error hanswer ▸ h₂.1.later _
    have happend := answer_of_perform hanswer
    simp only [answer] at happend
    cases hinsert : (s₂.after chance.elapsed).generations.insert
        ⟨id, .staged, cause, some manifest, (s₂.after chance.elapsed).clock⟩ with
    | none =>
      rw [hinsert] at happend
      cases happend
    | some ledger =>
      rw [hinsert] at happend
      cases happend
      refine ⟨h₂.1.frame rfl (fun generation hgeneration hrow => ?_) fun _ h => h,
        ⟨_, by rw [get?_insertRow hinsert, if_pos rfl], rfl⟩, hsite, h₂.2⟩
      rw [get?_insertRow hinsert, if_neg (h₂.2 generation hgeneration)]
      exact hrow

/-- A program under a lock. -/
theorem reaches_holding {α : Type} {I : Chance → DevCall → DevStore → Prop} {lock : Lock}
    {p : Task α} {P : α → DevStore → Prop} {M : α → DevStore → Prop}
    {B : ActivationError → DevStore → Prop} (hlock : ∀ chance, I chance (.lock lock) s)
    (hp : ∀ chance, Passes perform I p (perform chance (.lock lock) s).2 M B)
    (hok : ∀ a s', M a s' → (∀ chance, I chance (.unlock lock) s') ∧
      ∀ chance, P a (perform chance (.unlock lock) s').2)
    (herror : ∀ e s', B e s' → ∀ chance, I chance (.unlock lock) s') :
    Reaches perform I (holding lock p) s P := by
  refine reaches_bind (M := fun _ s' => ∃ chance, s' = (perform chance (.lock lock) s).2)
    (reaches_call hlock fun chance _ _ => ⟨chance, rfl⟩) fun _ s₁ h₁ => ?_
  obtain ⟨chance, rfl⟩ := h₁
  refine reaches_attempt (hp chance) (fun a s₂ h₂ => ?_) fun e s₂ h₂ => ?_
  · refine reaches_bind (M := fun _ => P a) (reaches_call (hok a s₂ h₂).1 fun chance _ _ =>
      (hok a s₂ h₂).2 chance) fun _ _ h₃ => reaches_pure h₃
  · exact reaches_bind (M := fun _ _ => True) (reaches_call (herror e s₂ h₂) fun _ _ _ => trivial)
      fun _ _ _ => reaches_throw

/-- Wherever an activation stops, the journal tells how far it has come. -/
theorem activate_halted (hstart : Settled start previous) (cause : GenerationCause)
    (intent : ActivationIntent) (maintenance : Maintenance)
    (hown : previous = none → ¬ OwnText (composedSite start intent) start.llms.text) :
    Reaches perform (fun _ _ => Halted previous) (activate cause intent maintenance) start
      fun _ _ => True := by
  have h : Begun start previous start := ⟨hstart, rfl, rfl, rfl⟩
  refine reaches_bind (h.looks (c := .readState) rfl
    (P := fun state s' => state = start.journal ∧ Begun start previous s')
    fun state elapsed chance hanswer => ⟨?_, h.later elapsed⟩).reaches fun state s₁ h₁ => ?_
  · cases hanswer
    rfl
  obtain ⟨rfl, h₁⟩ := h₁
  refine reaches_bind h₁.loadPrevious.reaches fun loaded s₂ h₂ => ?_
  obtain ⟨rfl, h₂⟩ := h₂
  refine reaches_bind (M := Appended start loaded (composedSite start intent))
    (reaches_holding (M := Appended start loaded (composedSite start intent))
      (B := fun _ => Begun start loaded) (fun _ => .before h₂.settled)
      (fun chance => (h₂.locks _ chance).stageGeneration cause intent) (fun staged s' h' =>
        ⟨fun _ => .before h'.begun.settled, fun chance => h'.unlocks chance⟩)
      fun e s' h' _ => .before h'.settled) fun staged s₃ h₃ => ?_
  obtain ⟨row, manifest⟩ := staged
  have hactive := h₃.begun.settled.active
  rw [h₃.begun.journal] at hactive
  have hloads : Loads ⟨row, manifest, loaded⟩ loaded row.id manifest := ⟨rfl, rfl, rfl⟩
  refine reaches_bind (activateStaged_halted hloads hactive _ maintenance
    (.before h₃.begun.settled) fun chance phase s' hanswer => ?_) fun activated s₄ h₄ => ?_
  · cases answer_of_perform hanswer
    exact ⟨hactive, rfl, h₃.stored, h₃.kept, h₃.other, h₃.between, h₃.own hown⟩
  · exact reaches_bind (h₄.only (adoptIfRollback_only _ _ _)).reaches fun _ _ _ =>
      reaches_pure trivial

end Beginning

end Dev
