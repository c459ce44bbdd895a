import Impresspress.Dev.Halted
import Impresspress.Dev.OneServing

/-!
# What a boot leaves

A boot that reports success should leave what belongs together: the journal at rest, the folder, and
the blocks that are to run. It does where it finds the journal at rest.

## Main definitions

* `Dev.Coherent`: what belongs together after a boot.
* `Dev.Strands`: the calls whose failure leaves the journal, or the folder, behind.
* `Dev.Rested`: a journal at rest, with the folder of the generation that it names.

## Main results

* `Dev.activeOrClear_ensures`: what the reading of the active generation comes to.
* `Dev.Rested.converges`: a boot on a journal at rest.
-/

namespace Dev

open Concurrent Concurrent.Fallible

/-- The journal is at rest, and the folder and the blocks belong to the generation that it names. -/
structure Coherent (s : DevStore) (blocks : List DynamicBlockSpec) : Prop where
  desired : s.journal.desiredGenerationId = none
  phase : s.journal.activationPhase = .idle
  serves : ∀ id ∈ s.journal.activeGenerationId, ∃ manifest, s.generations.Stores id manifest ∧
    (∀ path, s.folder.lookup path = contents (publishedView manifest.site s.llms.text) path) ∧
    blocks = manifest.blocks
  empty : s.journal.activeGenerationId = none → blocks = []

/-- The site of the active generation publishes something else than that of the generation `id`. -/
def PublishesOther (s : DevStore) (id : ℕ) : Prop :=
  ∃ active ∈ s.journal.activeGenerationId, ∃ old new, s.generations.Stores active old ∧
    s.generations.Stores id new ∧ ¬ SameSite s.llms.text old.site new.site

/-- The calls of a convergence on the journal of `s` that drive the generation it names to live, or
put the journal back at rest: the journal writes, the status writes of that generation and of the
one it supersedes, and the probes of its content. After the commit it is the reading of its row, if
the site that is then put back is another one. -/
def Strands (s : DevStore) (c : DevCall) : Prop :=
  ∃ id ∈ s.journal.desiredGenerationId,
    match c with
    | .writeState _ | .blobExists _ | .artifactIndex => True
    | .setStatus id' status => id' = id ∨ status = .superseded
    | .getGeneration id' => id' = id ∧ PublishesOther s id
    | _ => False

/-! ## What the journal names -/

section Named

variable {s : DevStore}

/-- The outcome of reading the active generation: it is there, there is none, or what there is cannot
be loaded and its pointer is cleared. -/
inductive Opened (s : DevStore) (failed : List DevCall) :
    Option LoadedGeneration × RuntimeState → DevStore × List DevCall → Prop
  | loaded {row : GenerationRow} {manifest : GenerationManifest} (elapsed : ℕ)
    (hactive : s.journal.activeGenerationId = some row.id)
    (hrow : s.generations.get? row.id = some row) (hmanifest : row.manifest = some manifest) :
    Opened s failed (some (row, manifest), s.journal) (s.after elapsed, failed)
  | absent (hactive : s.journal.activeGenerationId = none) :
    Opened s failed (none, s.journal) (s, failed)
  | cleared {id : ℕ} {x : DevStore × List DevCall}
    (hactive : s.journal.activeGenerationId = some id)
    (hgone : ∀ manifest, ¬ s.generations.Stores id manifest)
    (hjournal : x.1.journal = { s.journal with activeGenerationId := none })
    (hfolder : x.1.folder = s.folder) (hllms : x.1.llms = s.llms) (hfailed : failed <:+ x.2) :
    Opened s failed (none, { s.journal with activeGenerationId := none }) x

theorem abandonDangling_only (id : ℕ) :
    (abandonDangling id).run.Only fun c => c.keepsHalfway = true := by
  refine only_bind (only_attempt (only_call rfl)) fun found => ?_
  cases found with
  | ok _ => exact only_call rfl
  | error _ => exact only_pure _

/-- Calls that keep the journal and the folder. -/
theorem kept_of_only {α : Type} {p : Program DevCall (Outcome ActivationError Reply) α}
    (hp : p.Only fun c => c.keepsHalfway = true) (s : DevStore) (failed : List DevCall) :
    p.Ensures (recording perform) (s, failed) fun _ x => failed <:+ x.2 ∧
      x.1.journal = s.journal ∧ x.1.folder = s.folder ∧ x.1.llms = s.llms := by
  refine (recording_grows p s failed).and (hp.keeps (I := fun t : DevStore =>
    t.journal = s.journal ∧ t.folder = s.folder ∧ t.llms = s.llms) (fun chance c t hc ht => ?_)
    ⟨rfl, rfl, rfl⟩ failed)
  obtain ⟨hjournal, hfolder, hllms, -⟩ := keepsHalfway_perform hc chance t
  exact ⟨hjournal.trans ht.1, hfolder.trans ht.2.1, hllms.trans ht.2.2⟩

theorem loadJournalled_attains (id : ℕ) (s : DevStore) :
    Attains perform (loadJournalled id) s
      (fun found s' => found = journalled (s.generations.get? id) ∧ ∃ elapsed, s' = s.after elapsed)
      fun _ c s' => c = .lookupGeneration id ∧ ∃ elapsed, s' = s.after elapsed := by
  refine attains_bind (Q := fun row s' => row = s.generations.get? id ∧
    ∃ elapsed, s' = s.after elapsed) (attains_call (fun chance row s' hanswer => ?_)
    fun chance e s' hanswer => ⟨rfl, chance.elapsed, perform_error hanswer⟩)
    fun row s' h => attains_pure ⟨congrArg journalled h.1, h.2⟩
  cases answer_of_perform hanswer
  exact ⟨rfl, chance.elapsed, rfl⟩

theorem journalled_cases (found : Option GenerationRow) :
    (∃ row manifest, found = some row ∧ row.manifest = some manifest ∧
      journalled found = .loaded (row, manifest)) ∨
    journalled found = .dangling ∧ ∀ row, found = some row → row.manifest = none := by
  cases found with
  | none => exact .inr ⟨rfl, nofun⟩
  | some row =>
    cases hmanifest : row.manifest with
    | none =>
      refine .inr ⟨by simp [journalled, hmanifest], fun row' hrow' => ?_⟩
      cases hrow'
      exact hmanifest
    | some manifest => exact .inl ⟨row, manifest, rfl, hmanifest, by simp [journalled, hmanifest]⟩

theorem writeState_ensures (state : RuntimeState) (s : DevStore) (failed : List DevCall) :
    (call (.writeState state)).run.Ensures (recording perform) (s, failed) fun result x =>
      ∀ u, result = .ok u → ∃ elapsed, x = ({ s.after elapsed with journal := state }, failed) := by
  intro chance u hu
  have hanswer : perform chance (.writeState state) s =
      (.ok u, (perform chance (.writeState state) s).2) := Prod.ext hu rfl
  have hstore := (Prod.ext_iff.mp (answer_of_perform hanswer)).2
  rw [recording_ok hanswer]
  exact ⟨chance.elapsed, Prod.ext hstore.symm rfl⟩

theorem activeOrClear_ensures (s : DevStore) (failed : List DevCall) :
    (activeOrClear s.journal).run.Ensures (recording perform) (s, failed) fun result x =>
      ∀ r, result = .ok r → Opened s failed r x := by
  unfold activeOrClear
  cases hactive : s.journal.activeGenerationId with
  | none =>
    rintro r ⟨⟩
    exact .absent hactive
  | some id =>
    refine Fallible.ensures_bind (loadJournalled_attains id s failed) (fun found x h => ?_)
      fun e x _ r hr => by cases hr
    obtain ⟨t, failed'⟩ := x
    obtain ⟨hfailed, rfl, elapsed, ht⟩ := h
    dsimp only at hfailed ht
    subst hfailed ht
    rcases journalled_cases (s.generations.get? id) with ⟨row, manifest, hrow, hmanifest, hload⟩ |
      ⟨hdangling, hnone⟩
    · rw [hload]
      rintro r ⟨⟩
      have hid : row.id = id := (Relational.Table.get?_eq_some_iff.mp hrow).2
      subst hid
      exact .loaded elapsed hactive hrow hmanifest
    · rw [hdangling]
      refine Fallible.ensures_bind (kept_of_only (abandonDangling_only id) _ _)
        (fun _ x h => ?_) fun e x _ r hr => by cases hr
      obtain ⟨hsuffix, hjournal, hfolder, hllms⟩ := h
      obtain ⟨t, failed'⟩ := x
      refine Fallible.ensures_bind (writeState_ensures _ t failed') (fun _ x h => ?_)
        fun e x _ r hr => by cases hr
      obtain ⟨elapsed', rfl⟩ := h _ rfl
      rintro r ⟨⟩
      refine .cleared hactive ?_ rfl hfolder hllms hsuffix
      rintro manifest ⟨row, hrow, hmanifest⟩
      rw [hnone row hrow] at hmanifest
      cases hmanifest

end Named

/-! ## A journal at rest -/

section AtRest

variable {s : DevStore}

/-- The journal is at rest, and the folder is that of the generation it names, if it is there. -/
structure Rested (s : DevStore) : Prop where
  desired : s.journal.desiredGenerationId = none
  phase : s.journal.activationPhase = .idle
  folder : ∀ id ∈ s.journal.activeGenerationId, ∀ manifest, s.generations.Stores id manifest →
    ∀ path, s.folder.lookup path = contents (publishedView manifest.site s.llms.text) path

theorem Rested.after {c : DevCall} (hc : c.keepsHalfway) (chance : Chance) (h : Rested s) :
    Rested (perform chance c s).2 := by
  obtain ⟨hjournal, hfolder, hllms, hstores⟩ := keepsHalfway_perform hc chance s
  refine ⟨?_, ?_, fun id hid manifest hstored => ?_⟩
  · rw [hjournal]
    exact h.desired
  · rw [hjournal]
    exact h.phase
  · rw [hjournal] at hid
    rw [hfolder, hllms]
    exact h.folder id hid manifest ((hstores id manifest).mp hstored)

/-- The end of a convergence, on whatever is in the journal then. -/
inductive Answered (s : DevStore) (failed : List DevCall) :
    List DynamicBlockSpec → DevStore × List DevCall → Prop
  | loaded {id : ℕ} {manifest : GenerationManifest} (elapsed : ℕ)
    (hactive : s.journal.activeGenerationId = some id) (hstored : s.generations.Stores id manifest) :
    Answered s failed manifest.blocks (s.after elapsed, failed)
  | absent (elapsed : ℕ) (hactive : s.journal.activeGenerationId = none) :
    Answered s failed [] (s.after elapsed, failed)
  | cleared {id : ℕ} {x : DevStore × List DevCall}
    (hactive : s.journal.activeGenerationId = some id)
    (hgone : ∀ manifest, ¬ s.generations.Stores id manifest)
    (hjournal : x.1.journal = { s.journal with activeGenerationId := none })
    (hfailed : failed <:+ x.2) : Answered s failed [] x

/-- Reading the journal again, and the generation that it names. -/
def answerBlocks : Task (List DynamicBlockSpec) := do
  let state ← call .readState
  let (active, _) ← activeOrClear state
  pure ((active.map (·.2.blocks)).getD [])

theorem after_after (s : DevStore) (a b : ℕ) : (s.after a).after b = s.after (a + b) := by
  simp [DevStore.after, Nat.add_assoc]

theorem readState_ensures (s : DevStore) (failed : List DevCall) :
    (call .readState).run.Ensures (recording perform) (s, failed) fun result x =>
      ∀ state, result = .ok state → state = s.journal ∧ ∃ elapsed, x = (s.after elapsed, failed) := by
  intro chance state hstate
  have hanswer : perform chance .readState s = (.ok state, s.after chance.elapsed) :=
    Prod.ext hstate (perform_reads rfl chance s)
  rw [recording_ok hanswer]
  exact ⟨(Except.ok.inj (Prod.ext_iff.mp (answer_of_perform hanswer)).1).symm, chance.elapsed, rfl⟩

theorem answerBlocks_ensures (s : DevStore) (failed : List DevCall) :
    answerBlocks.run.Ensures (recording perform) (s, failed) fun result x =>
      ∀ blocks, result = .ok blocks → Answered s failed blocks x := by
  refine Fallible.ensures_bind (readState_ensures s failed) (fun state x h => ?_)
    fun e x _ _ hr => by cases hr
  obtain ⟨rfl, elapsed, rfl⟩ := h state rfl
  refine Fallible.ensures_bind (activeOrClear_ensures (s.after elapsed) failed) (fun r x h => ?_)
    fun e x _ _ hr => by cases hr
  rintro blocks ⟨⟩
  cases h r rfl with
  | loaded elapsed' hactive hrow hmanifest =>
    rw [after_after]
    exact .loaded _ hactive ⟨_, hrow, hmanifest⟩
  | absent hactive => exact .absent elapsed hactive
  | cleared hactive hgone hjournal _ _ hfailed => exact .cleared hactive hgone hjournal hfailed

/-- On a journal at rest, what is answered belongs to the folder. -/
theorem Rested.answers (h : Rested s) {failed : List DevCall} {blocks : List DynamicBlockSpec}
    {x : DevStore × List DevCall} (hanswered : Answered s failed blocks x) :
    Coherent x.1 blocks := by
  cases hanswered with
  | loaded elapsed hactive hstored =>
    refine ⟨h.desired, h.phase, fun id' hid => ?_, fun hnone => ?_⟩
    · cases hactive.symm.trans hid
      exact ⟨_, hstored, h.folder _ hactive _ hstored, rfl⟩
    · cases hactive.symm.trans hnone
  | absent elapsed hactive =>
    refine ⟨h.desired, h.phase, fun id' hid => ?_, fun _ => rfl⟩
    cases hactive.symm.trans hid
  | cleared hactive hgone hjournal hfailed =>
    refine ⟨?_, ?_, fun id' hid => ?_, fun _ => rfl⟩
    · rw [hjournal]
      exact h.desired
    · rw [hjournal]
      exact h.phase
    · rw [hjournal] at hid
      cases hid

end AtRest

/-! ## Closing what was left in flight -/

section Retiring

variable {cut : DevStore} {state : RuntimeState} {previous : Option LoadedGeneration}

/-- A call that keeps the journal and the folder, and whose failure does no harm. -/
def Idle (cut : DevStore) (c : DevCall) : Prop := c.keepsHalfway = true ∧ ¬ Strands cut c

theorem idle_lookup (id : ℕ) : Idle cut (.lookupGeneration id) := ⟨rfl, fun ⟨_, _, h⟩ => h⟩

theorem retireGenerations_idle (hstate : state.desiredGenerationId = cut.journal.desiredGenerationId)
    (rows : List GenerationRow) :
    (retireGenerations state.desiredGenerationId rows).run.Only (Idle cut) := by
  induction rows with
  | nil => exact only_pure _
  | cons row rows ih =>
    unfold retireGenerations
    split
    · exact ih
    · rename_i hother
      refine only_bind (only_attempt (only_call ⟨rfl, ?_⟩)) fun _ => ih
      rintro ⟨id, hid, hrow | hstatus⟩
      · exact hother (hstate.trans (hrow ▸ hid))
      · cases hstatus

theorem retireInFlight_idle (vouched : List Sha) : (retireInFlight vouched).run.Only (Idle cut) :=
  only_bind (only_call ⟨rfl, fun ⟨_, _, h⟩ => h⟩) fun _ =>
    only_forM fun _ _ => only_call ⟨rfl, fun ⟨_, _, h⟩ => h⟩

theorem retireBuilds_idle (desired : Option ℕ) (vouched : List Sha) :
    (retireBuilds desired vouched).run.Only (Idle cut) := by
  have hretire : ∀ vouched, (do
      let _ ← attempt (retireInFlight vouched)
      pure () : Task Unit).run.Only (Idle cut) := fun vouched =>
    only_bind (only_attempt (retireInFlight_idle vouched)) fun _ => only_pure _
  unfold retireBuilds
  split
  · exact hretire vouched
  · refine only_bind (only_attempt (only_bind (only_call (idle_lookup _)) fun _ => only_pure _))
      fun loaded => ?_
    split
    · exact hretire _
    · exact hretire vouched
    · exact only_pure _

theorem retireAbandoned_idle (previous : Option LoadedGeneration) (hstate : state.desiredGenerationId = cut.journal.desiredGenerationId) :
    (retireAbandoned state previous).run.Only (Idle cut) :=
  only_bind (only_attempt (only_call ⟨rfl, fun ⟨_, _, h⟩ => h⟩)) fun _ =>
    only_bind (retireGenerations_idle hstate _) fun _ => retireBuilds_idle _ _

/-- A convergence on a journal at rest. -/
theorem Rested.converges {s : DevStore} (h : Rested s) (turns : ℕ) (failed : List DevCall) :
    (convergeOnBoot turns).run.Ensures (recording perform) (s, failed) fun result x =>
      ∀ blocks, result = .ok blocks → Coherent x.1 blocks := by
  refine Fallible.ensures_bind (readState_ensures s failed) (fun state x hread => ?_)
    fun e x _ _ hr => by cases hr
  obtain ⟨rfl, elapsed, rfl⟩ := hread state rfl
  refine Fallible.ensures_bind (activeOrClear_ensures (s.after elapsed) failed) (fun r x hopen => ?_)
    fun e x _ _ hr => by cases hr
  have hrested : Rested x.1 ∧ x.1.journal = r.2 := by
    cases hopen r rfl with
    | loaded elapsed' _ _ _ => exact ⟨⟨h.desired, h.phase, h.folder⟩, rfl⟩
    | absent _ => exact ⟨⟨h.desired, h.phase, h.folder⟩, rfl⟩
    | cleared _ _ hjournal _ _ _ =>
      refine ⟨⟨?_, ?_, ?_⟩, hjournal⟩
      · rw [hjournal]
        exact h.desired
      · rw [hjournal]
        exact h.phase
      · rw [hjournal]
        exact nofun
  obtain ⟨previous, state⟩ := r
  obtain ⟨t, failed₁⟩ := x
  obtain ⟨hrested, hjournal⟩ := hrested
  dsimp only at hrested hjournal ⊢
  subst hjournal
  refine Fallible.ensures_bind ((retireAbandoned_idle previous
    (rfl : t.journal.desiredGenerationId = t.journal.desiredGenerationId)).keeps
    (I := fun t' => Rested t' ∧ t'.journal = t.journal) (fun chance c t' hc ht' =>
      ⟨ht'.1.after hc.1 chance, (keepsHalfway_perform hc.1 chance t').1.trans ht'.2⟩)
    ⟨hrested, rfl⟩ failed₁) (fun _ x hx => ?_) fun e x _ _ hr => by cases hr
  have hnone : convergeOnDesired t.journal previous turns = pure () := by
    unfold convergeOnDesired
    rw [hrested.desired]
  rw [hnone]
  exact (answerBlocks_ensures x.1 x.2).mono fun result y hy blocks hblocks =>
    hx.1.answers (hy blocks hblocks)

end Retiring

end Dev
