import Impresspress.Dev.Reactivation

/-!
# Recovery

A process that starts after an activation was stopped converges on what the journal names. What it
serves then belongs together unless a call fails with which the journalled generation is driven on:
that failure is reported to nobody, and the journal is left as it is.

## Main definitions

* `Dev.Verdict`: what a convergence has left when it reads the journal again.

## Main results

* `Dev.converge_coherent_iff`: a boot that reports success after an activation was stopped anywhere
  leaves what belongs together exactly if none of these calls failed.
-/

namespace Dev

open Concurrent Concurrent.Fallible

/-! ## The whole convergence -/

section Converging

variable {cut s t : DevStore} {previous : Option LoadedGeneration} {id : ℕ}
  {new : GenerationManifest} {failed : List DevCall} {α : Type}

theorem Generations.Stores.unique {ledger : Generations} {manifest manifest' : GenerationManifest}
    (h : ledger.Stores id manifest) (h' : ledger.Stores id manifest') : manifest = manifest' := by
  obtain ⟨row, hrow, hmanifest⟩ := h
  obtain ⟨row', hrow', hmanifest'⟩ := h'
  cases hrow.symm.trans hrow'
  exact Option.some.inj (hmanifest.symm.trans hmanifest')

/-- The old generation, with its row as it is now. -/
theorem UnderWay.opened (h : UnderWay previous id new s)
    {r : Option LoadedGeneration × RuntimeState} {x : DevStore × List DevCall}
    (hopened : Opened s failed r x) :
    ∃ loaded, r = (loaded, s.journal) ∧ UnderWay loaded id new s ∧
      ∃ elapsed, x = (s.after elapsed, failed) := by
  cases hopened with
  | @loaded row manifest elapsed hactive hrow hmanifest =>
    refine ⟨_, rfl, ?_, elapsed, rfl⟩
    cases previous with
    | none => cases hactive.symm.trans h.active
    | some generation =>
      have hid : row.id = generation.1.id := Option.some.inj (hactive.symm.trans h.active)
      have hsame : manifest = generation.2 :=
        Generations.Stores.unique ⟨row, hrow, hmanifest⟩ (hid ▸ h.kept generation rfl)
      have hkept := h.kept generation rfl
      have hother := h.other generation rfl
      refine ⟨hactive, h.desired, h.stored, ?_, ?_, ?_, nofun⟩
      · rintro _ ⟨⟩
        exact ⟨row, hrow, hmanifest⟩
      · rintro _ ⟨⟩
        rw [hid]
        exact hother
      · rw [hsame]
        exact h.between
  | absent hactive =>
    refine ⟨none, rfl, ?_, 0, rfl⟩
    cases previous with
    | none => exact h
    | some generation => cases hactive.symm.trans h.active
  | cleared hactive hgone _ _ _ _ =>
    cases previous with
    | none => cases hactive.symm.trans h.active
    | some generation =>
      cases Option.some.inj (hactive.symm.trans h.active)
      exact absurd (h.kept generation rfl) (hgone _)

/-- What a convergence has left when it reads the journal again. -/
inductive Verdict (cut t : DevStore) (failed : List DevCall) : Prop
  | rested (h : Rested t) (hstored : ∀ id ∈ t.journal.activeGenerationId, ∃ manifest,
      t.generations.Stores id manifest) (hharmless : Harmless cut failed)
  | stranded (hdesired : t.journal.desiredGenerationId ≠ none) (hharm : ¬ Harmless cut failed)
  | overwritten {id : ℕ} {new : GenerationManifest} (hactive : t.journal.activeGenerationId = some id)
    (hstored : t.generations.Stores id new) {path : Path}
    (hpath : t.folder.lookup path ≠ contents (publishedView new.site t.llms.text) path)
    (hharm : ¬ Harmless cut failed)

theorem not_harmless_of_suffix {failed' : List DevCall} (h : ¬ Harmless cut failed)
    (hsuffix : failed <:+ failed') : ¬ Harmless cut failed' := fun h' =>
  h fun c hc => h' c (hsuffix.subset hc)

theorem Verdict.answers (h : Verdict cut t failed) {blocks : List DynamicBlockSpec}
    {x : DevStore × List DevCall} (hanswered : Answered t failed blocks x) :
    Coherent x.1 blocks ↔ Harmless cut x.2 := by
  cases h with
  | rested hrested hstored hharmless =>
    refine iff_of_true (hrested.answers hanswered) ?_
    cases hanswered with
    | loaded elapsed _ _ => exact hharmless
    | absent elapsed _ => exact hharmless
    | cleared hactive hgone _ _ =>
      obtain ⟨manifest, hmanifest⟩ := hstored _ hactive
      exact absurd hmanifest (hgone manifest)
  | stranded hdesired hharm =>
    cases hanswered with
    | loaded elapsed _ _ => exact iff_of_false (fun h => hdesired h.desired) hharm
    | absent elapsed _ => exact iff_of_false (fun h => hdesired h.desired) hharm
    | cleared _ _ hjournal hfailed =>
      refine iff_of_false (fun h => hdesired ?_) (not_harmless_of_suffix hharm hfailed)
      have hnone := h.desired
      rw [hjournal] at hnone
      exact hnone
  | overwritten hactive hstored hpath hharm =>
    cases hanswered with
    | loaded elapsed _ _ =>
      refine iff_of_false (fun h => hpath ?_) hharm
      obtain ⟨manifest, hmanifest, hfolder, -⟩ := h.serves _ hactive
      cases hstored.unique hmanifest
      exact hfolder _
    | absent elapsed hnone => cases hactive.symm.trans hnone
    | cleared hcleared hgone _ _ =>
      cases hactive.symm.trans hcleared
      exact absurd hstored (hgone _)

/-- Whether the failed reading of the row does harm. -/
theorem UnderWay.publishesOther_iff (h : UnderWay previous id new cut) :
    PublishesOther cut id ↔ ∃ generation ∈ previous,
      ¬ SameSite cut.llms.text generation.2.site new.site := by
  constructor
  · rintro ⟨active, hactive, old, new', hold, hnew, hother⟩
    cases previous with
    | none => cases hactive.symm.trans h.active
    | some generation =>
      cases Option.some.inj (hactive.symm.trans h.active)
      cases hold.unique (h.kept generation rfl)
      cases hnew.unique h.stored
      exact ⟨generation, rfl, hother⟩
  · rintro ⟨generation, rfl, hother⟩
    exact ⟨_, h.active, _, _, h.kept generation rfl, h.stored, hother⟩

theorem GaveUp.rested {generation : LoadedGeneration} (h : GaveUp (some generation) new s)
    (hfolder : ∀ path, s.folder.lookup path =
      contents (publishedView generation.2.site s.llms.text) path) : Rested s where
  desired := h.desired
  phase := h.phase
  folder := by
    rintro id hid manifest hstored
    cases Option.some.inj (h.active.symm.trans hid)
    cases hstored.unique (h.kept generation rfl)
    exact hfolder

/-- The text of the sandbox's file is the seed's to change. -/
theorem text_of_perform (chance : Chance) (c : DevCall) (s : DevStore) :
    (perform chance c s).2.llms.text = s.llms.text := by
  cases hanswer : perform chance c s with
  | mk outcome s' =>
    cases outcome with
    | error e =>
      rw [perform_error hanswer]
      rfl
    | ok reply =>
      have hstore := (Prod.ext_iff.mp (answer_of_perform hanswer)).2
      dsimp only at hstore ⊢
      rw [← hstore]
      cases c <;> simp only [answer] <;> first | rfl | (split <;> rfl)

theorem only_any {p : Program DevCall (Outcome ActivationError Reply) α} :
    p.Only fun _ => True := by
  induction p with
  | done a => exact trivial
  | call c next ih => exact ⟨trivial, ih⟩

theorem text_of_run (p : Program DevCall (Outcome ActivationError Reply) α) (s : DevStore)
    (failed : List DevCall) : p.Ensures (recording perform) (s, failed) fun _ x =>
      x.1.llms.text = s.llms.text :=
  only_any.keeps (I := fun t => t.llms.text = s.llms.text)
    (fun chance c t _ ht => (text_of_perform chance c t).trans ht) rfl failed

/-- Putting the active site back after a re-activation that failed. -/
theorem Ended.restores (h : UnderWay previous id new cut) (htext : s.llms.text = cut.llms.text)
    (hended : Ended cut previous id new s failed) :
    (restoreActiveSite (some new.site) previous).run.Ensures (recording perform) (s, failed)
      fun result x => ∀ u, result = .ok u → Verdict cut x.1 x.2 := by
  cases previous with
  | none =>
    rintro _ ⟨⟩
    rcases hended with ⟨hdesired, c, hc, hstrands⟩ | ⟨hgave, hharmless⟩ |
      ⟨hlanded, failed', rfl, hharmless⟩
    · exact .stranded (by rw [hdesired]; exact nofun) fun hharmless => hharmless c hc hstrands
    · refine .rested ⟨hgave.desired, hgave.phase, fun id hid => ?_⟩ (fun id hid => ?_) hharmless
      · cases hgave.active.symm.trans hid
      · cases hgave.active.symm.trans hid
    · refine .rested hlanded.rested hlanded.stored (hharmless.cons ?_)
      rintro ⟨id', hid', -, hother⟩
      cases Option.some.inj (h.desired.symm.trans hid')
      obtain ⟨generation, hgeneration, -⟩ := h.publishesOther_iff.mp hother
      cases hgeneration
  | some generation =>
    refine Fallible.ensures_bind (publishSite_attains s (some new.site) generation.2.site failed)
      (fun _ x hx => ?_) fun e x _ _ hr => by cases hr
    obtain ⟨t, failed'⟩ := x
    obtain ⟨hfailed, hfinished⟩ := hx
    dsimp only at hfailed
    subst hfailed
    rintro _ ⟨⟩
    have hsame : t = { s with folder := t.folder, llms := t.llms, clock := t.clock } :=
      Finished.same hfinished
    have htext' : t.llms.text = s.llms.text := Finished.text hfinished
    have hjournal : t.journal = s.journal := by rw [hsame]
    have hgenerations : t.generations = s.generations := by rw [hsame]
    rcases hended with ⟨hdesired, c, hc, hstrands⟩ | ⟨hgave, hharmless⟩ |
      ⟨hlanded, failed'', rfl, hharmless⟩
    · refine .stranded ?_ fun hharmless => hharmless c hc hstrands
      rw [hjournal, hdesired]
      exact nofun
    · have hback : GaveUp (some generation) new t := by
        refine ⟨by rw [hjournal]; exact hgave.active, by rw [hjournal]; exact hgave.desired,
          by rw [hjournal]; exact hgave.phase, by rw [hgenerations]; exact hgave.kept, ?_⟩
        exact hgave.between.undone nofun hfinished
      refine .rested (hback.rested (hgave.between.republished hfinished)) (fun id hid => ?_)
        hharmless
      cases Option.some.inj (hback.active.symm.trans hid)
      exact ⟨_, hback.kept generation rfl⟩
    · -- the new generation is live, and the old site is in the folder
      have hbetween : Between (some generation.2.site) new.site s.folder s.llms :=
        between_of_published hlanded.record hlanded.committed.folder
      have hfolder := hbetween.republished hfinished
      have hactive : t.journal.activeGenerationId = some id := by
        rw [hjournal]
        exact hlanded.committed.active
      have hstored : t.generations.Stores id new := by
        rw [hgenerations]
        obtain ⟨row, hrow, hmanifest, -⟩ := hlanded.row
        exact ⟨row, hrow, hmanifest⟩
      by_cases hother : SameSite cut.llms.text generation.2.site new.site
      · refine .rested ⟨by rw [hjournal]; exact hlanded.committed.desired,
          by rw [hjournal]; exact hlanded.committed.phase, fun id' hid' manifest hmanifest path => ?_⟩
          (fun id' hid' => ?_) (hharmless.cons ?_)
        · cases Option.some.inj (hactive.symm.trans hid')
          cases hstored.unique hmanifest
          rw [hfolder path, htext', htext]
          exact hother path
        · cases Option.some.inj (hactive.symm.trans hid')
          exact ⟨new, hstored⟩
        · rintro ⟨id', hid', -, hpublishes⟩
          cases Option.some.inj (h.desired.symm.trans hid')
          obtain ⟨_, ⟨⟩, hdiffers⟩ := h.publishesOther_iff.mp hpublishes
          exact hdiffers hother
      · obtain ⟨path, hpath⟩ := not_forall.mp hother
        have hwrong : t.folder.lookup path ≠
            contents (publishedView new.site t.llms.text) path := by
          rw [hfolder path, htext', htext]
          exact hpath
        refine .overwritten hactive hstored hwrong fun hall => ?_
        exact hall _ List.mem_cons_self
          ⟨id, h.desired, rfl, h.publishesOther_iff.mpr ⟨generation, rfl, hother⟩⟩

/-- Finishing what the journal names. -/
theorem UnderWay.convergesOnDesired (hcut : UnderWay previous id new cut)
    (h : UnderWay previous id new s) (htext : s.llms.text = cut.llms.text)
    (hharmless : Harmless cut failed) (turns : ℕ) :
    (convergeOnDesired cut.journal previous turns).run.Ensures (recording perform) (s, failed)
      fun result x => ∀ u, result = .ok u → Verdict cut x.1 x.2 := by
  unfold convergeOnDesired
  rw [hcut.desired]
  refine Fallible.ensures_bind (loadJournalled_attains id s failed) (fun found x hx => ?_)
    fun e x _ _ hr => by cases hr
  obtain ⟨t, failed'⟩ := x
  obtain ⟨hfailed, rfl, elapsed, ht⟩ := hx
  dsimp only at hfailed ht
  subst hfailed ht
  obtain ⟨row, hrow, hmanifest⟩ := h.stored
  have hload : journalled (s.generations.get? id) = .loaded (row, new) := by
    rw [hrow]
    simp [journalled, hmanifest]
  rw [hload]
  have hid : row.id = id := (Relational.Table.get?_eq_some_iff.mp hrow).2
  have hlater : UnderWay previous id new (s.after elapsed) :=
    h.frame rfl rfl (fun _ _ h => h) rfl rfl
  have hloads : Loads ⟨row, new, previous⟩ previous id new := ⟨hid, rfl, rfl⟩
  have hactivates := hlater.activates hcut.desired hloads hcut.active none turns failed' hharmless
  refine Program.ensures_bind.mpr (Program.ensures_bind.mpr ((hactivates.and
    (text_of_run _ (s.after elapsed) failed')).mono fun result x hx => ?_))
  obtain ⟨hresult, hkept⟩ := hx
  cases result with
  | ok activated =>
    rintro _ ⟨⟩
    exact .rested hresult.2.rested hresult.2.stored hresult.1
  | error e => exact Ended.restores hcut (hkept.trans htext) hresult

/-- A convergence on the journal of an activation that is under way. -/
theorem UnderWay.converges (h : UnderWay previous id new cut) (turns : ℕ) :
    (convergeOnBoot turns).run.Ensures (recording perform) (cut, []) fun result x =>
      ∀ blocks, result = .ok blocks → (Coherent x.1 blocks ↔ Harmless cut x.2) := by
  refine Fallible.ensures_bind (readState_ensures cut []) (fun state x hread => ?_)
    fun e x _ _ hr => by cases hr
  obtain ⟨rfl, elapsed, rfl⟩ := hread state rfl
  refine Fallible.ensures_bind (activeOrClear_ensures (cut.after elapsed) []) (fun r x hopen => ?_)
    fun e x _ _ hr => by cases hr
  have hlater : UnderWay previous id new (cut.after elapsed) :=
    h.frame rfl rfl (fun _ _ h => h) rfl rfl
  obtain ⟨loaded, rfl, hloaded, elapsed', rfl⟩ := hlater.opened (hopen r rfl)
  have hcut : UnderWay loaded id new cut := hloaded.frame rfl rfl (fun _ _ h => h) rfl rfl
  have hopened : UnderWay loaded id new ((cut.after elapsed).after elapsed') :=
    hloaded.frame rfl rfl (fun _ _ h => h) rfl rfl
  have hidle : (retireAbandoned cut.journal loaded).run.Only (Idle cut) :=
    retireAbandoned_idle loaded rfl
  refine Fallible.ensures_bind ((hidle.keeps (I := UnderWay loaded id new)
    (fun chance c s hc hs => hs.after hc.1 chance) hopened []).and ((hidle.records _ []).and
      (text_of_run _ _ []))) (fun _ x hx => ?_) fun e x _ _ hr => by cases hr
  obtain ⟨hretired, hrecords, htext⟩ := hx
  have hharmless : Harmless cut x.2 := fun c hc =>
    ((hrecords c hc).resolve_left List.not_mem_nil).2
  refine Fallible.ensures_bind (hcut.convergesOnDesired hretired htext hharmless turns)
    (fun _ y hy => ?_) fun e y _ _ hr => by cases hr
  exact (answerBlocks_ensures y.1 y.2).mono fun result z hz blocks hblocks =>
    (hy _ rfl).answers (hz blocks hblocks)

end Converging

/-! ## An activation that is stopped, and the next boot -/

/-- What a stopped activation leaves is also there for the process that starts. -/
theorem Halted.restarted {previous : Option LoadedGeneration} {s : DevStore}
    (h : Halted previous s) : Rested s.restarted ∨
      ∃ id new, UnderWay previous id new s.restarted := by
  cases h with
  | before h =>
    refine .inl ?_
    cases previous with
    | none =>
      refine ⟨h.2.1, h.2.2.1, fun id hid => ?_⟩
      cases h.1.symm.trans hid
    | some generation =>
      refine ⟨h.desired, h.phase, ?_⟩
      rintro id hid manifest ⟨row, hrow, hmanifest⟩
      cases Option.some.inj (h.serves.active.symm.trans hid)
      cases h.row.symm.trans hrow
      cases h.manifest.symm.trans hmanifest
      exact h.serves.folder
  | underWay h =>
    exact .inr ⟨_, _, h.active, h.desired, h.stored, h.kept, h.other, h.between, h.own⟩
  | committed h =>
    refine .inl ⟨h.desired, h.phase, ?_⟩
    rintro id hid manifest ⟨row, hrow, hmanifest⟩
    cases Option.some.inj (h.active.symm.trans hid)
    cases (h.stored row hrow).symm.trans hmanifest
    exact h.folder

/-- After an activation that was stopped between any two of its calls, a boot that reports success
leaves the journal at rest, the folder as the site of the generation that the journal names, and
answers with the blocks of that generation, exactly if no call failed in it that drives the
journalled generation on. -/
theorem converge_coherent_iff {start : DevStore} {previous : Option LoadedGeneration}
    (hstart : Settled start previous) (cause : GenerationCause) (intent : ActivationIntent)
    (maintenance : Maintenance)
    (hown : previous = none → ¬ OwnText (composedSite start intent) start.llms.text)
    (chances : ℕ → Chance) (n : ℕ) {cut : DevStore}
    (hcut : (activate cause intent maintenance).run.stoppedAt perform chances n start = some cut)
    (turns : ℕ) (chances' : ℕ → Chance) {blocks : List DynamicBlockSpec} {s : DevStore}
    {failed : List DevCall}
    (hboot : (convergeOnBoot turns).run.run (recording perform) chances' (cut.restarted, []) =
      (.ok blocks, (s, failed))) :
    Coherent s blocks ↔ ∀ c ∈ failed, ¬ Strands cut.restarted c := by
  obtain ⟨c, hhalted⟩ := (activate_halted hstart cause intent maintenance hown).stoppedAt hcut
  rcases (hhalted ⟨false, 0, 0, true⟩).restarted with hrested | ⟨id, new, hway⟩
  · have hcoherent := (hrested.converges turns []).run chances'
    rw [hboot] at hcoherent
    refine iff_of_true (hcoherent blocks rfl) fun c _ => ?_
    rintro ⟨id, hid, -⟩
    cases hrested.desired.symm.trans hid
  · have hiff := (hway.converges turns).run chances'
    rw [hboot] at hiff
    exact hiff blocks rfl

/-- The edit of the page is stopped when the journal names its generation, and nothing else has
happened to it. -/
def stoppedEdit : DevStore :=
  ((activate .siteWrite .siteOnly .deferred).run.stoppedAt perform (fun _ => ⟨false, 1, 2, true⟩) 8
    edited).getD edited

/-- The boot after it, of whose calls one fails at most. -/
def bootAfterEdit (failing : ℕ) :
    Except ActivationError (List DynamicBlockSpec) × (DevStore × List DevCall) :=
  (convergeOnBoot 1).run.run (recording perform) (fun n => ⟨n == failing, 1, 3, true⟩)
    (stoppedEdit.restarted, [])

/-- A status write fails in the boot: it reports success, and the journal still names a generation
to activate. -/
theorem converge_incoherent_bootAfterEdit :
    Settled edited (some first) ∧
      (activate .siteWrite .siteOnly .deferred).run.stoppedAt perform
        (fun _ => ⟨false, 1, 2, true⟩) 8 edited = some stoppedEdit ∧
      bootAfterEdit 7 = (.ok [], ((bootAfterEdit 7).2.1, [.setStatus 2 .validating])) ∧
      ¬ Coherent (bootAfterEdit 7).2.1 [] := by
  refine ⟨edited_atRest, rfl, rfl, fun h => ?_⟩
  have hdesired : (bootAfterEdit 7).2.1.journal.desiredGenerationId = some 2 := rfl
  rw [h.desired] at hdesired
  cases hdesired

/-- The same boot with no call failing finishes the edit. -/
theorem converge_coherent_iff_bootAfterEdit :
    Coherent (bootAfterEdit 99).2.1 [] ↔
      ∀ c ∈ ([] : List DevCall), ¬ Strands stoppedEdit.restarted c :=
  converge_coherent_iff (show Settled edited (some first) from edited_atRest) .siteWrite .siteOnly
    .deferred nofun (fun _ => ⟨false, 1, 2, true⟩) 8 rfl 1 (fun n => ⟨n == 99, 1, 3, true⟩) rfl

end Dev
