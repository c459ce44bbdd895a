import Impresspress.Dev.BootAtRest

/-!
# The re-activation of a journalled generation

A boot that finds a generation journalled drives it to live. A part of that ends in one of three
ways when it fails: with the journal as it was, after a failure that does harm; with the activation
given up; or with the generation live and its row not read back.

## Main definitions

* `Dev.Steps`: a part of a convergence, with the calls that have failed in it.
* `Dev.Ended`: what a re-activation leaves that fails.

## Main results

* `Dev.UnderWay.activates`: a re-activation lands, or ends in one of these ways.
-/

namespace Dev

open Concurrent Concurrent.Fallible

/-! ## Parts of a convergence -/

section Steps

variable {cut s : DevStore} {α β : Type} {P : α → DevStore → Prop} {M : β → DevStore → Prop}
  {E : DevStore → List DevCall → Prop} {B : DevStore → Prop}

/-- No recorded failure does harm. -/
def Harmless (cut : DevStore) (failed : List DevCall) : Prop := ∀ c ∈ failed, ¬ Strands cut c

theorem Harmless.cons {failed : List DevCall} (h : Harmless cut failed) {c : DevCall}
    (hc : ¬ Strands cut c) : Harmless cut (c :: failed) := fun c' hc' => by
  rcases List.mem_cons.mp hc' with rfl | hc'
  · exact hc
  · exact h c' hc'

/-- A part of the convergence ends with no harm done and `P`, or with an error and `E`. -/
def Steps (cut : DevStore) (p : Task α) (s : DevStore) (P : α → DevStore → Prop)
    (E : DevStore → List DevCall → Prop) : Prop :=
  ∀ failed, Harmless cut failed → p.run.Ensures (recording perform) (s, failed) fun result x =>
    match result with
    | .ok a => Harmless cut x.2 ∧ P a x.1
    | .error _ => E x.1 x.2

theorem steps_pure {a : α} (h : P a s) : Steps cut (pure a) s P E := fun _ hfailed => ⟨hfailed, h⟩

theorem steps_throw {e : ActivationError} (h : ∀ failed, Harmless cut failed → E s failed) :
    Steps cut (throw e : Task α) s P E := h

theorem steps_call {c : DevCall} {P : Reply c → DevStore → Prop}
    (hok : ∀ chance reply s', perform chance c s = (.ok reply, s') → P reply s')
    (herror : ∀ chance e s', perform chance c s = (.error e, s') →
      ∀ failed, Harmless cut failed → E s' (c :: failed)) : Steps cut (call c) s P E := by
  intro failed hfailed chance
  cases hanswer : perform chance c s with
  | mk outcome s' =>
    cases outcome with
    | ok reply =>
      rw [recording_ok hanswer]
      exact ⟨hfailed, hok chance reply s' hanswer⟩
    | error e =>
      rw [recording_error hanswer]
      exact herror chance e s' hanswer failed hfailed

theorem steps_bind {p : Task β} {f : β → Task α} (hp : Steps cut p s M E)
    (hf : ∀ b t, M b t → Steps cut (f b) t P E) : Steps cut (p >>= f) s P E := fun failed hfailed =>
  Fallible.ensures_bind (hp failed hfailed) (fun b x h => hf b x.1 h.2 x.2 h.1) fun _ _ h => h

/-- A part whose failure is looked at, and does no harm. -/
theorem steps_attempt {p : Task β} {f : Except ActivationError β → Task α}
    (hp : Steps cut p s M fun t failed => Harmless cut failed ∧ B t)
    (hok : ∀ b t, M b t → Steps cut (f (.ok b)) t P E)
    (herror : ∀ e t, B t → Steps cut (f (.error e)) t P E) :
    Steps cut (attempt p >>= f) s P E := by
  intro failed hfailed
  refine Program.ensures_bind.mpr (Program.ensures_bind.mpr ((hp failed hfailed).mono
    fun result x h => ?_))
  cases result with
  | ok b => exact hok b x.1 h.2 x.2 h.1
  | error e => exact herror e x.1 h.2 x.2 h.1

/-- A part that stops at its first failed call, where that does no harm. -/
theorem steps_attains {p : Task α} {F : ActivationError → DevCall → DevStore → Prop}
    (h : Attains perform p s P F) (hF : ∀ e c t, F e c t → ¬ Strands cut c ∧ B t) :
    Steps cut p s P fun t failed => Harmless cut failed ∧ B t := by
  refine fun failed hfailed => (h failed).mono fun result x hx => ?_
  cases result with
  | ok a => exact ⟨hx.1 ▸ hfailed, hx.2⟩
  | error e =>
    obtain ⟨c, hc, hbad⟩ := hx
    obtain ⟨hharmless, hB⟩ := hF e c x.1 hbad
    exact ⟨hc ▸ hfailed.cons hharmless, hB⟩

end Steps

/-! ## Driving the journalled generation to live -/

section Driving

variable {cut s : DevStore} {previous : Option LoadedGeneration} {id : ℕ}
  {new : GenerationManifest} {state : RuntimeState} {staged : Staged} {α : Type}

/-- The activation was given up, and the journal names what was live before. -/
structure GaveUp (previous : Option LoadedGeneration) (new : GenerationManifest) (s : DevStore) :
    Prop where
  active : s.journal.activeGenerationId = previous.map (·.1.id)
  desired : s.journal.desiredGenerationId = none
  phase : s.journal.activationPhase = .idle
  kept : ∀ generation ∈ previous, s.generations.Stores generation.1.id generation.2
  between : Between (previous.map (·.2.site)) new.site s.folder s.llms

/-- The new generation is live, and its row says so. -/
structure Landed (id : ℕ) (new : GenerationManifest) (s : DevStore) : Prop where
  committed : Committed id new s
  row : ∃ row, s.generations.get? id = some row ∧ row.manifest = some new ∧ row.status = .active
  record : s.llms.publishedSha256 = sandboxSha (publishedView new.site s.llms.text)

/-- What a re-activation leaves that fails: a harmful failure and the journal as it was, an
activation that was given up, or one that landed and could not be read back. -/
def Ended (cut : DevStore) (previous : Option LoadedGeneration) (id : ℕ)
    (new : GenerationManifest) (s : DevStore) (failed : List DevCall) : Prop :=
  (s.journal.desiredGenerationId = some id ∧ ∃ c ∈ failed, Strands cut c) ∨
  (GaveUp previous new s ∧ Harmless cut failed) ∨
  (Landed id new s ∧ ∃ failed', failed = .getGeneration id :: failed' ∧ Harmless cut failed')

/-- A call that drives the activation on: its failure leaves the journal as it was. -/
theorem UnderWay.drives (h : UnderWay previous id new s) {c : DevCall} (hc : Strands cut c)
    {P : Reply c → DevStore → Prop}
    (hok : ∀ chance reply s', perform chance c s = (.ok reply, s') → P reply s') :
    Steps cut (call c) s P (Ended cut previous id new) := by
  refine steps_call hok fun chance e s' hanswer failed _ => .inl ⟨?_, c, List.mem_cons_self, hc⟩
  rw [perform_error hanswer]
  exact h.desired

theorem UnderWay.passesOn (h : UnderWay previous id new s) {c : DevCall} (hc : Strands cut c)
    (hkeeps : c.keepsHalfway = true) :
    Steps cut (call c) s (fun _ => UnderWay previous id new) (Ended cut previous id new) :=
  h.drives hc fun chance reply s' hanswer => by
    have h' := h.after hkeeps chance
    rwa [hanswer] at h'

variable (hcut : cut.journal.desiredGenerationId = some id)
include hcut

theorem UnderWay.writes (h : UnderWay previous id new s)
    (hstate : state.activeGenerationId = previous.map (·.1.id)) (phase : ActivationPhase) :
    Steps cut (journal state id phase) s (fun _ => UnderWay previous id new)
      (Ended cut previous id new) :=
  h.drives ⟨id, hcut, trivial⟩ fun chance reply s' hanswer => by
    have h' := h.written { state with desiredGenerationId := some id, activationPhase := phase }
      hstate rfl chance
    rwa [hanswer] at h'

theorem UnderWay.givesUp (h : UnderWay previous id new s) {e : ActivationError}
    (hstate : state.activeGenerationId = previous.map (·.1.id)) {P : α → DevStore → Prop} :
    Steps cut (refuse id state e : Task α) s P (Ended cut previous id new) := by
  refine steps_bind (M := fun _ => GaveUp previous new) ?_ fun _ t ht =>
    steps_throw fun failed hfailed => .inr (.inl ⟨ht, hfailed⟩)
  refine steps_bind (h.passesOn ⟨id, hcut, .inl rfl⟩ rfl) fun _ s₁ h₁ => ?_
  refine h₁.drives ⟨id, hcut, trivial⟩ fun chance reply s' hanswer => ?_
  cases answer_of_perform hanswer
  exact ⟨hstate, rfl, rfl, h₁.kept, h₁.between⟩

omit hcut in
/-- Calls all of which drive the activation on. -/
theorem UnderWay.prompt {K : DevCall → Prop} {p : Task α} (h : UnderWay previous id new s)
    (hp : Prompt K p.run) (hK : ∀ c, K c → c.keepsHalfway = true ∧ Strands cut c) :
    Steps cut p s (fun _ => UnderWay previous id new) (Ended cut previous id new) := by
  intro failed hfailed
  generalize p.run = q at hp
  induction q generalizing s with
  | done result =>
    cases result with
    | ok a => exact ⟨hfailed, h⟩
    | error e => exact hp.elim
  | call c next ih =>
    intro chance
    obtain ⟨hkeeps, hstrands⟩ := hK c hp.1
    have hafter := h.after hkeeps chance
    cases hanswer : perform chance c s with
    | mk outcome s' =>
      rw [hanswer] at hafter
      cases outcome with
      | ok reply =>
        rw [recording_ok hanswer]
        exact ih _ hafter (hp.2.1 reply)
      | error e =>
        rw [recording_error hanswer, hp.2.2 e]
        exact .inl ⟨hafter.desired, c, List.mem_cons_self, hstrands⟩

omit hcut in
/-- The probes of the content. -/
def DevCall.probes : DevCall → Prop
  | .blobExists _ | .artifactIndex => True
  | _ => False

omit hcut in
theorem missingContent_prompt (manifest : GenerationManifest) (site : Option SiteManifest) :
    Prompt DevCall.probes (missingContent manifest site).run := by
  have hblobs : ∀ present shas, Prompt DevCall.probes (missingBlobs present shas).run := by
    intro present shas
    induction shas with
    | nil => exact prompt_pure _
    | cons sha shas ih =>
      unfold missingBlobs
      split
      · exact ih
      · exact prompt_bind (prompt_call trivial) fun _ => prompt_bind ih fun _ => prompt_pure _
  refine prompt_bind (hblobs _ _) fun _ => ?_
  split
  · exact prompt_pure _
  · exact prompt_bind (prompt_call trivial) fun _ => prompt_pure _

theorem UnderWay.validates (h : UnderWay previous id new s) (hloads : Loads staged previous id new)
    (hstate : state.activeGenerationId = previous.map (·.1.id)) (site : Option SiteManifest) :
    Steps cut (staged.validate state site) s (fun _ => UnderWay previous id new)
      (Ended cut previous id new) := by
  unfold Staged.validate
  rw [hloads.row]
  refine steps_bind (h.writes hcut hstate _) fun _ s₁ h₁ => ?_
  refine steps_bind (h₁.passesOn ⟨id, hcut, .inl rfl⟩ rfl) fun _ s₂ h₂ => ?_
  refine steps_bind (h₂.prompt (missingContent_prompt _ _) fun c hc => ?_)
    fun missing s₃ h₃ => ?_
  · cases c with
    | blobExists _ | artifactIndex => exact ⟨rfl, id, hcut, trivial⟩
    | _ => exact hc.elim
  · split
    · exact steps_pure h₃
    · exact h₃.givesUp hcut hstate

theorem UnderWay.rebuildsRuntime (h : UnderWay previous id new s)
    (hloads : Loads staged previous id new)
    (hstate : state.activeGenerationId = previous.map (·.1.id)) :
    Steps cut (staged.buildRuntime state) s (fun _ => UnderWay previous id new)
      (Ended cut previous id new) := by
  unfold Staged.buildRuntime
  rw [hloads.row]
  split
  · refine steps_bind (h.writes hcut hstate _) fun _ s₁ h₁ => ?_
    refine steps_attempt (M := fun _ => UnderWay previous id new) (B := UnderWay previous id new)
      (steps_call (fun chance reply s' hanswer => ?_) fun chance e s' hanswer failed hfailed => ?_)
      (fun _ _ h₂ => steps_pure h₂) fun _ _ h₂ => h₂.givesUp hcut hstate
    · have h' := h₁.after (c := .rebuild staged.manifest.blocks) rfl chance
      rwa [hanswer] at h'
    · have h' := h₁.after (c := .rebuild staged.manifest.blocks) rfl chance
      rw [hanswer] at h'
      exact ⟨hfailed.cons fun ⟨_, _, hstrands⟩ => hstrands, h'⟩
  · exact steps_pure h

omit hcut in
theorem not_strands_of_publishes {c : DevCall} (hc : c.publishes = true) : ¬ Strands cut c := by
  rintro ⟨_, _, h⟩
  cases c <;> first | exact h | cases hc

omit hcut in
/-- A publish in a convergence: it comes to its end, or it has stopped and done no harm. -/
theorem publishSite_steps (prev : Option SiteManifest) (next : SiteManifest) (s : DevStore) :
    Steps cut (publishSite prev next) s (fun _ => Finished s prev next)
      fun t failed => Harmless cut failed ∧ Half s prev next t :=
  steps_attains (publishSite_attains s prev next) fun _ _ _ h => ⟨not_strands_of_publishes h.1, h.2⟩

omit hcut in
theorem UnderWay.restoresSite (h : UnderWay previous id new s) (rebuilt : Bool)
    {E : DevStore → List DevCall → Prop} :
    Steps cut (restore new previous rebuilt) s (fun _ => UnderWay previous id new) E := by
  refine steps_bind (M := fun _ => UnderWay previous id new) ?_ fun _ s₁ h₁ => ?_
  · unfold restoreRuntime
    split
    · refine steps_attempt (M := fun _ => UnderWay previous id new) (B := UnderWay previous id new)
        (steps_call (fun chance reply s' hanswer => ?_)
          fun chance e s' hanswer failed hfailed => ?_)
        (fun _ _ h₂ => steps_pure h₂) fun _ _ h₂ => steps_pure h₂
      · have h' := h.after (c := .restorePrevious) rfl chance
        rwa [hanswer] at h'
      · have h' := h.after (c := .restorePrevious) rfl chance
        rw [hanswer] at h'
        exact ⟨hfailed.cons fun ⟨_, _, hstrands⟩ => hstrands, h'⟩
    · exact steps_pure h
  · refine steps_attempt (publishSite_steps _ _ s₁) (fun _ t hfinished => steps_pure ?_)
      fun _ t hhalf => steps_pure (h₁.half hhalf (h₁.between.backward hhalf))
    exact h₁.finished hfinished (h₁.between.undone
      (fun hnone => h₁.own (Option.map_eq_none_iff.mp hnone)) hfinished)

/-- The new site is in the folder, and the record says so. -/
structure Placed (previous : Option LoadedGeneration) (id : ℕ) (new : GenerationManifest)
    (s : DevStore) : Prop where
  underWay : UnderWay previous id new s
  folder : ∀ path, s.folder.lookup path = contents (publishedView new.site s.llms.text) path
  record : s.llms.publishedSha256 = sandboxSha (publishedView new.site s.llms.text)

omit hcut in
theorem UnderWay.placed {t : DevStore} (h : UnderWay previous id new s)
    (hfinished : Finished s (previous.map (·.2.site)) new.site t) : Placed previous id new t := by
  have hfolder := h.between.published hfinished
  have hrecord : t.llms.publishedSha256 = sandboxSha (publishedView new.site t.llms.text) := by
    obtain ⟨done, -, -, hllms⟩ := hfinished
    rw [hllms]
  exact ⟨h.finished hfinished (between_of_published hrecord hfolder), hfolder, hrecord⟩

omit hcut in
theorem Placed.after (h : Placed previous id new s) {c : DevCall} (hc : c.keepsHalfway = true)
    (chance : Chance) : Placed previous id new (perform chance c s).2 := by
  obtain ⟨-, hfolder, hllms, -⟩ := keepsHalfway_perform hc chance s
  refine ⟨h.underWay.after hc chance, ?_, ?_⟩
  · rw [hfolder, hllms]
    exact h.folder
  · rw [hllms]
    exact h.record

theorem UnderWay.publishesSite (h : UnderWay previous id new s)
    (hloads : Loads staged previous id new)
    (hstate : state.activeGenerationId = previous.map (·.1.id)) :
    Steps cut (staged.publish state) s (fun _ => Placed previous id new)
      (Ended cut previous id new) := by
  unfold Staged.publish
  rw [hloads.row, hloads.manifest, hloads.previous]
  refine steps_bind (h.writes hcut hstate _) fun _ s₁ h₁ => ?_
  refine steps_attempt (publishSite_steps _ _ s₁)
    (fun _ t hfinished => steps_pure (h₁.placed hfinished)) fun e t hhalf => ?_
  have h₂ := h₁.half hhalf (h₁.between.forward hhalf)
  exact steps_bind (h₂.restoresSite _) fun _ _ h₃ => h₃.givesUp hcut hstate

theorem Placed.commits (h : Placed previous id new s) (hloads : Loads staged previous id new) :
    Steps cut (staged.commit state) s (fun _ => Landed id new) (Ended cut previous id new) := by
  let Row : DevStore → Prop := fun t =>
    ∃ row, t.generations.get? id = some row ∧ row.manifest = some new ∧ row.status = .active
  refine steps_bind (M := fun _ t => Placed previous id new t ∧ Row t) ?_ fun _ s₁ h₁ => ?_
  · rw [hloads.row]
    refine h.underWay.drives (c := .setStatus id .active) ⟨id, hcut, .inl rfl⟩ fun chance reply s' hanswer => ?_
    have hafter := h.after (c := .setStatus id .active) rfl chance
    rw [hanswer] at hafter
    refine ⟨hafter, ?_⟩
    have hset := answer_of_perform hanswer
    simp only [answer] at hset
    split at hset
    · rename_i ledger hledger
      cases hset
      obtain ⟨row, hrow, hmanifest⟩ := h.underWay.stored
      refine ⟨{ row with status := .active }, ?_, hmanifest, rfl⟩
      have hrow' : (s.after chance.elapsed).generations.get? id = some row := hrow
      rw [get?_setStatus hledger, if_pos rfl, hrow']
      rfl
    · cases hset
  refine steps_bind (M := fun _ t => Placed previous id new t ∧ Row t) ?_ fun _ s₂ h₂ => ?_
  · unfold Staged.supersede
    split
    · rename_i superseded hsuperseded
      have hother : superseded.1.id ≠ id := by
        have hfilter := (Option.filter_eq_some_iff.mp hsuperseded).2
        rw [hloads.row] at hfilter
        simpa using hfilter
      refine h₁.1.underWay.drives (c := .setStatus superseded.1.id .superseded)
        ⟨id, hcut, .inr rfl⟩ fun chance reply s' hanswer => ?_
      have hafter := h₁.1.after (c := .setStatus superseded.1.id .superseded) rfl chance
      rw [hanswer] at hafter
      refine ⟨hafter, ?_⟩
      have hset := answer_of_perform hanswer
      simp only [answer] at hset
      split at hset
      · rename_i ledger hledger
        cases hset
        obtain ⟨row, hrow, hmanifest, hstatus⟩ := h₁.2
        have hrow' : (s₁.after chance.elapsed).generations.get? id = some row := hrow
        exact ⟨row, by rw [get?_setStatus hledger, if_neg hother.symm, hrow'], hmanifest, hstatus⟩
      · cases hset
    · exact steps_pure h₁
  · refine h₂.1.underWay.drives ⟨id, hcut, trivial⟩ fun chance reply s' hanswer => ?_
    cases answer_of_perform hanswer
    obtain ⟨row, hrow, hmanifest, hstatus⟩ := h₂.2
    refine ⟨⟨congrArg some hloads.row, rfl, rfl, fun row' hrow' => ?_, h₂.1.folder⟩,
      ⟨row, hrow, hmanifest, hstatus⟩, h₂.1.record⟩
    cases hrow.symm.trans hrow'
    exact hmanifest

omit hcut in
theorem Landed.stored (h : Landed id new s) :
    ∀ id' ∈ s.journal.activeGenerationId, ∃ manifest, s.generations.Stores id' manifest := by
  intro id' hid'
  cases Option.some.inj (h.committed.active.symm.trans hid')
  obtain ⟨row, hrow, hmanifest, -⟩ := h.row
  exact ⟨new, row, hrow, hmanifest⟩

omit hcut in
theorem Landed.rested (h : Landed id new s) : Rested s where
  desired := h.committed.desired
  phase := h.committed.phase
  folder := by
    rintro id' hid' manifest ⟨row, hrow, hmanifest⟩
    cases Option.some.inj (h.committed.active.symm.trans hid')
    cases Option.some.inj ((h.committed.stored row hrow).symm.trans hmanifest)
    exact h.committed.folder

omit hcut in
theorem Landed.after (h : Landed id new s) {c : DevCall} (hc : c.maintains = true)
    (hspares : ∀ ids, c = .deleteMany ids → id ∉ ids) (chance : Chance) :
    Landed id new (perform chance c s).2 := by
  have hcommitted := h.committed.after (c := c) (by rw [DevCall.followsCommit, hc]; rfl) chance
  by_cases hreads : c.reads
  · rw [perform_reads hreads] at hcommitted ⊢
    exact ⟨hcommitted, h.row, h.record⟩
  cases hanswer : perform chance c s with
  | mk outcome s' =>
    rw [hanswer] at hcommitted
    cases outcome with
    | error e =>
      rw [perform_error hanswer] at hcommitted ⊢
      exact ⟨hcommitted, h.row, h.record⟩
    | ok reply =>
      have hstore := (Prod.ext_iff.mp (answer_of_perform hanswer)).2
      dsimp only at hstore hcommitted ⊢
      refine ⟨hcommitted, ?_, ?_⟩
      · rw [← hstore]
        cases c with
        | deleteMany ids =>
          obtain ⟨row, hrow, hmanifest⟩ := h.row
          refine ⟨row, ?_, hmanifest⟩
          change (Generations.deleteMany _ ids).get? id = some row
          rw [get?_deleteMany, if_neg (hspares ids rfl)]
          exact hrow
        | deleteBuild _ | deleteForArtifact _ | deleteBlob _ | deleteArtifact _ | saveWorkspace _
        | lock _ | unlock _ => exact h.row
        | _ => first | exact absurd rfl hreads | cases hc
      · rw [← hstore]
        cases c with
        | deleteMany _ | deleteBuild _ | deleteForArtifact _ | deleteBlob _ | deleteArtifact _
        | saveWorkspace _ | lock _ | unlock _ => exact h.record
        | _ => first | exact absurd rfl hreads | cases hc

/-- Any calls are made. -/
def Free : Chance → DevCall → DevStore → Prop := fun _ _ _ => True

omit hcut in
theorem Landed.call (h : Landed id new s) {c : DevCall} (hc : c.maintains = true)
    (hspares : ∀ ids, c = .deleteMany ids → id ∉ ids) :
    Passes perform Free (call c) s (fun _ => Landed id new) fun _ => Landed id new := by
  refine passes_call (fun _ => trivial) (fun chance reply s' hanswer => ?_)
    fun chance e s' hanswer => ?_
  · have h' := h.after hc hspares chance
    rwa [hanswer] at h'
  · have h' := h.after hc hspares chance
    rwa [hanswer] at h'

omit hcut in
/-- Pruning deletes no row that is active. -/
theorem Landed.prunes (h : Landed id new s) (turns : ℕ) :
    Passes perform Free (prune turns) s (fun _ => Landed id new) fun _ => Landed id new := by
  have hbelow : ∀ (turns : ℕ) (boundary : GenerationRow) (pruned : List GenerationRow)
      (s : DevStore), Landed id new s → Passes perform Free (pruneBelow boundary turns pruned) s
        (fun _ => Landed id new) fun _ => Landed id new := by
    intro turns boundary
    induction turns with
    | zero => exact fun _ _ h => passes_pure h
    | succ turns ih =>
      intro pruned s h
      refine passes_bind (M := fun page t => Landed id new t ∧ id ∉ page.map (·.id)) ?_
        fun page t ht => ?_
      · refine passes_call (fun _ => trivial) (fun chance page s' hanswer => ?_)
          fun chance e s' hanswer => ?_
        · have h' := h.after (c := .listPrunable boundary) rfl nofun chance
          rw [hanswer] at h'
          refine ⟨h', fun hmem => ?_⟩
          cases answer_of_perform hanswer
          obtain ⟨row, hrow, hid⟩ := List.mem_map.mp hmem
          obtain ⟨live, hlive, -, hactive⟩ := h.row
          have hstored := get?_of_mem (mem_listPrunable hrow).1
          rw [hid] at hstored
          cases hlive.symm.trans hstored
          exact active_not_mem_listPrunable hactive hrow
        · have h' := h.after (c := .listPrunable boundary) rfl nofun chance
          rwa [hanswer] at h'
      · split
        · exact passes_pure ht.1
        · refine passes_bind (ht.1.call rfl fun ids hids => ?_) fun _ t' ht' => ih _ _ ht'
          cases hids
          exact ht.2
  refine passes_bind (h.call (c := .listRecent retainedGenerations) rfl nofun) fun newest t ht => ?_
  split
  · exact passes_pure ht
  · exact hbelow turns _ _ t ht

omit hcut in
/-- A maintenance pass changes nothing of what is live. -/
theorem Landed.maintains (h : Landed id new s) (turns : ℕ) :
    Steps cut (maintain turns) s (fun _ => Landed id new) (Ended cut previous id new) := by
  have hcollect : ∀ t, Landed id new t → Passes perform Free collect t (fun _ => Landed id new)
      fun _ => Landed id new := by
    intro t ht
    refine (passes_only collect_sweeps (fun chance c s hc hs => hs.after
      (DevCall.maintains_of_sweeps c hc) (fun ids hids => ?_) chance) ht).mono
      (fun _ _ _ _ => trivial) (fun _ _ h => h) fun _ _ h => h
    subst hids
    cases hc
  have hpasses : Passes perform Free (maintain turns) s (fun _ => Landed id new)
      fun _ => Landed id new := by
    refine passes_bind (h.call (c := .lock .maintenance) rfl nofun) fun _ s₁ h₁ => ?_
    have hpass : Passes perform Free (pruneThenCollect turns) s₁ (fun _ => Landed id new)
        fun _ => Landed id new := by
      refine passes_attempt (h₁.prunes turns) (fun _ t ht => ?_) fun _ t ht => passes_pure ht
      exact passes_attempt (hcollect t ht) (fun _ _ ht' => passes_pure ht')
        fun _ _ ht' => passes_pure ht'
    refine passes_attempt hpass (fun _ t ht => ?_) fun _ t ht => ?_
    · exact passes_bind (ht.call rfl nofun) fun _ _ ht' => passes_pure ht'
    · exact passes_bind (ht.call rfl nofun) fun _ _ ht' => passes_throw ht'
  intro failed hfailed
  refine ((hpasses.ensures failed).and (((maintain_only turns).records s failed).and
    (maintain_keeps (I := fun _ => True) turns (fun _ _ _ _ _ => trivial) trivial failed))).mono
    fun result x hx => ?_
  obtain ⟨hlanded, hrecords, rfl, -⟩ := hx
  refine ⟨fun c hc => ?_, hlanded⟩
  rcases hrecords c hc with hold | hmaintains
  · exact hfailed c hold
  · rintro ⟨_, _, hstrands⟩
    cases c <;> first | exact hstrands | cases hmaintains

/-- The journalled generation is driven to live. -/
theorem UnderWay.activates (h : UnderWay previous id new s) (hloads : Loads staged previous id new)
    (hstate : state.activeGenerationId = previous.map (·.1.id)) (site : Option SiteManifest)
    (turns : ℕ) :
    Steps cut (activateStaged staged site state (.inline turns)) s (fun _ => Landed id new)
      (Ended cut previous id new) := by
  refine steps_bind (h.validates hcut hloads hstate site) fun _ s₁ h₁ => ?_
  rw [hloads.row]
  refine steps_bind (h₁.passesOn (c := .setStatus id .activating) ⟨id, hcut, .inl rfl⟩ rfl)
    fun _ s₂ h₂ => ?_
  refine steps_bind (h₂.rebuildsRuntime hcut hloads hstate) fun _ s₃ h₃ => ?_
  refine steps_bind (h₃.publishesSite hcut hloads hstate) fun _ s₄ h₄ => ?_
  refine steps_bind (h₄.commits hcut hloads) fun _ s₅ h₅ => ?_
  refine steps_bind (h₅.maintains turns) fun _ s₆ h₆ => ?_
  refine steps_call (fun chance reply s' hanswer => ?_) fun chance e s' hanswer failed hfailed => ?_
  · have hread := perform_reads (c := .getGeneration id) rfl chance s₆
    rw [hanswer] at hread
    rw [show s' = s₆.after chance.elapsed from hread]
    exact ⟨⟨h₆.committed.active, h₆.committed.desired, h₆.committed.phase, h₆.committed.stored,
      h₆.committed.folder⟩, h₆.row, h₆.record⟩
  · rw [perform_error hanswer]
    exact .inr (.inr ⟨⟨⟨h₆.committed.active, h₆.committed.desired, h₆.committed.phase,
      h₆.committed.stored, h₆.committed.folder⟩, h₆.row, h₆.record⟩, failed, rfl, hfailed⟩)

end Driving

end Dev
