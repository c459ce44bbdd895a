import Impresspress.Dev.Activation

/-!
# What a failed activation leaves

An activation that starts at rest, with everything belonging to one generation, and that is
refused or fails at one of its calls, should leave everything as it was. It does so up to the
publish; a failure between the rebuild and the publish, or after the publish, is not undone.

## Main definitions

* `Dev.AtRest`: the runtime, the folder and the journal belong to one generation, and nothing is
  going on.
* `Dev.Serves`: they belong to it.
* `Dev.LeavesNew`: the calls whose failure is not undone.

## Main results

* `Dev.failed_activation_iff`: a failed activation changes nothing unless one of these calls failed.
* `Dev.failed_activation_serves_new`: the site of a refused activation is served.
-/

namespace Dev

open Concurrent Concurrent.Fallible

/-- What is being served, and what the journal says is. -/
structure Live where
  runtime : Runtime
  folder : Folder
  llms : LlmsRow
  active : Option ℕ

/-- The runtime, the published folder and the journal belong to the generation. -/
structure Live.Serves (live : Live) (generation : LoadedGeneration) : Prop where
  active : live.active = some generation.1.id
  runtime : SameBlocks live.runtime.blocks generation.2.blocks
  folder : ∀ path, live.folder.lookup path =
    contents (publishedView generation.2.site live.llms.text) path

def DevStore.live (s : DevStore) : Live :=
  ⟨s.runtime, s.folder, s.llms, s.journal.activeGenerationId⟩

/-- The calls that change nothing of what is live. -/
def DevCall.keepsLive : DevCall → Bool
  | .writeState _ | .setLlmsPublished _ | .putSite .. | .deleteSite _ | .rebuild _
  | .restorePrevious => false
  | _ => true

theorem live_of_perform {c : DevCall} (h : c.keepsLive) (chance : Chance) (s : DevStore) :
    (perform chance c s).2.live = s.live := by
  unfold perform
  dsimp only
  split
  · rfl
  cases c with
  | writeState _ | setLlmsPublished _ | putSite _ _ | deleteSite _ | rebuild _
  | restorePrevious => cases h
  | _ =>
    simp only [answer]
    first
      | rfl
      | split <;> rfl

/-- A call that keeps what is live, whether it fails or not. -/
theorem attains_keepsLive {c : DevCall} (h : c.keepsLive) (s : DevStore) :
    Attains perform (call c) s (fun _ s' => s'.live = s.live)
      (fun _ c' s' => c' = c ∧ s'.live = s.live) := by
  refine attains_call (fun chance reply s' hperform => ?_) fun chance e s' hperform => ?_
  · rw [← live_of_perform h chance s, hperform]
  · rw [← live_of_perform h chance s, hperform]
    exact ⟨rfl, rfl⟩

/-- Nothing is going on, and all that is live belongs to the generation. -/
structure AtRest (s : DevStore) (generation : LoadedGeneration) : Prop where
  serves : s.live.Serves generation
  record : s.llms.publishedSha256 = sandboxSha (publishedView generation.2.site s.llms.text)
  desired : s.journal.desiredGenerationId = none
  phase : s.journal.activationPhase = .idle
  row : s.generations.get? generation.1.id = some generation.1
  manifest : generation.1.manifest = some generation.2
  status : generation.1.status = .active
  drawn : generation.1.id ∈ s.ids

/-- The manifest that an activation composes at a store at rest. -/
def composed (s : DevStore) (generation : LoadedGeneration) : ActivationIntent → GenerationManifest
  | .siteOnly => ⟨s.workspace.siteManifest, generation.2.blocks⟩
  | .blockSet site blocks => ⟨site.getD s.workspace.siteManifest, blocks⟩
  | .rollback target => target
  | .seed manifest => manifest

/-- The two sites put the same into the folder. -/
def SameSite (text : Option Sha) (a b : SiteManifest) : Prop :=
  ∀ path, contents (publishedView a text) path = contents (publishedView b text) path

/-- The blocks or the published site of `new` differ from the generation's. -/
def Differs (generation : LoadedGeneration) (new : GenerationManifest) (text : Option Sha) : Prop :=
  blockSetChanged (some generation.2) new ∨ ¬ SameSite text generation.2.site new.site

/-- The calls of an activation whose failure leaves something of the new generation behind: the
journal write between the rebuild and the publish, the writes of the commit, and the reading of
the row after the commit. -/
def LeavesNew (generation : LoadedGeneration) (new : GenerationManifest) (text : Option Sha) :
    DevCall → Prop
  | .writeState state =>
    if state.activeGenerationId = some generation.1.id then
      state.activationPhase = .publishing ∧ blockSetChanged (some generation.2) new
    else Differs generation new text
  | .setStatus _ .active | .setStatus _ .superseded => Differs generation new text
  | .getGeneration id => id ≠ generation.1.id
  | _ => False

/-- The calls that are made to undo an activation: the abandoning of its row, the journal put back
at rest, and the old runtime put back. -/
def Undoes (generation : LoadedGeneration) : DevCall → Prop
  | .setStatus _ .failed | .restorePrevious => True
  | .writeState state =>
    state.activeGenerationId = some generation.1.id ∧ state.desiredGenerationId = none
  | _ => False

/-- One call fails at most, and none that undoes. -/
structure SingleFault (generation : LoadedGeneration) (failed : List DevCall) : Prop where
  single : failed.length ≤ 1
  undone : ∀ c ∈ failed, ¬ Undoes generation c

theorem SingleFault.earlier {generation : LoadedGeneration} (failed failed' : List DevCall)
    (h : failed <:+ failed') (hfault : SingleFault generation failed') :
    SingleFault generation failed :=
  ⟨Nat.le_trans h.length_le hfault.single, fun c hc => hfault.undone c (h.subset hc)⟩

/-- What is live is the generation's exactly if no call failed that leaves something behind. -/
def Undone (generation : LoadedGeneration) (new : GenerationManifest) (text : Option Sha)
    (s : DevStore) (failed : List DevCall) : Prop :=
  s.live.Serves generation ↔ ∀ c ∈ failed, ¬ LeavesNew generation new text c

/-- A phase ends with no call failed and with `P`, or with an error and what is to be shown. -/
def Phase {α : Type} (generation : LoadedGeneration) (new : GenerationManifest) (text : Option Sha)
    (P : α → DevStore → Prop) (result : Except ActivationError α) (s : DevStore)
    (failed : List DevCall) : Prop :=
  match result with
  | .ok a => failed = [] ∧ P a s
  | .error _ => Undone generation new text s failed

section Phases

variable {generation : LoadedGeneration} {new : GenerationManifest} {text : Option Sha}
  {s : DevStore} {α β : Type}

theorem undone_of_serves {failed : List DevCall} (hserves : s.live.Serves generation)
    (hfailed : ∀ c ∈ failed, ¬ LeavesNew generation new text c) :
    Undone generation new text s failed :=
  iff_of_true hserves hfailed

/-- A program that keeps what is live up to its first failed call, which leaves nothing behind. -/
theorem phase_of_attains {p : Task α} {P : α → DevStore → Prop}
    (hserves : s.live.Serves generation)
    (hp : Attains perform p s P
      fun _ c s' => ¬ LeavesNew generation new text c ∧ s'.live = s.live) :
    Settles perform (SingleFault generation) p s [] (Phase generation new text P) := by
  refine (hp []).mono fun result x h _ => ?_
  obtain ⟨s', failed⟩ := x
  cases result with
  | ok a => exact h
  | error e =>
    obtain ⟨c, rfl, hnew, hlive⟩ := h
    refine undone_of_serves (hlive ▸ hserves) fun c' hc' => ?_
    rw [List.mem_singleton.mp hc']
    exact hnew

/-- A call that keeps what is live and leaves nothing behind. -/
theorem phase_keepsLive {c : DevCall} (hc : c.keepsLive) (hnew : ¬ LeavesNew generation new text c)
    (hserves : s.live.Serves generation) :
    Settles perform (SingleFault generation) (call c) s []
      (Phase generation new text fun _ s' => s'.live = s.live) :=
  phase_of_attains hserves <| (attains_keepsLive hc s).mono (fun _ _ h => h)
    fun _ _ _ h => ⟨h.1 ▸ hnew, h.2⟩

/-- One phase after the other. -/
theorem phase_bind {p : Task β} {f : β → Task α} {Q : β → DevStore → Prop}
    {P : α → DevStore → Prop}
    (hp : Settles perform (SingleFault generation) p s [] (Phase generation new text Q))
    (hf : ∀ b s', Q b s' →
      Settles perform (SingleFault generation) (f b) s' [] (Phase generation new text P)) :
    Settles perform (SingleFault generation) (p >>= f) s [] (Phase generation new text P) := by
  refine hp.bind SingleFault.earlier (fun b s' failed' hmid => ?_) fun e s' failed' h => h
  obtain ⟨rfl, hmid⟩ := hmid
  exact hf b s' hmid

/-- A journal write that keeps the active generation changes nothing of what is live. -/
theorem attains_writeState {state : RuntimeState}
    (h : state.activeGenerationId = s.journal.activeGenerationId) :
    Attains perform (call (.writeState state)) s (fun _ s' => s'.live = s.live)
      (fun _ c' s' => c' = .writeState state ∧ s'.live = s.live) := by
  refine attains_call (fun chance reply s' hperform => ?_) fun chance e s' hperform => ?_
  · cases answer_of_perform hperform
    simp [DevStore.live, DevStore.after, h]
  · rw [perform_error hperform]
    exact ⟨rfl, rfl⟩

theorem phase_journal {state : RuntimeState} {desired : ℕ} {phase : ActivationPhase}
    (hstate : state.activeGenerationId = some generation.1.id)
    (hserves : s.live.Serves generation)
    (hphase : phase = .publishing → blockSetChanged (some generation.2) new = false) :
    Settles perform (SingleFault generation) (journal state desired phase) s []
      (Phase generation new text fun _ s' => s'.live = s.live) := by
  have hactive : s.journal.activeGenerationId = some generation.1.id := hserves.active
  set written : RuntimeState :=
    { state with desiredGenerationId := some desired, activationPhase := phase } with hwritten
  have hkeeps : written.activeGenerationId = s.journal.activeGenerationId :=
    hstate.trans hactive.symm
  refine phase_of_attains hserves <| (attains_writeState hkeeps).mono (fun _ _ h => h)
    fun _ c s' h => ⟨?_, h.2⟩
  rw [h.1]
  simp only [LeavesNew, hwritten, hstate, if_true, not_and]
  intro hpublishing
  rw [hphase hpublishing]
  exact Bool.false_ne_true

/-- An activation that is abandoned changes nothing of what is live. -/
theorem settles_refuse {state : RuntimeState} {id : ℕ} {e : ActivationError}
    {failed : List DevCall} {post : Except ActivationError α → DevStore → List DevCall → Prop}
    (hstate : state.activeGenerationId = some generation.1.id)
    (hactive : s.journal.activeGenerationId = some generation.1.id)
    (hpost : ∀ s', s'.live = s.live → post (.error e) s' failed) :
    Settles perform (SingleFault generation) (refuse id state e : Task α) s failed post := by
  refine settles_bind (Q := fun _ s' => s'.live = s.live)
    (E := fun _ c _ => Undoes generation c) ?_
    (fun _ s' hlive => settles_throw fun _ => hpost s' hlive)
    fun e c s' hundoes hfault => absurd hundoes (hfault.undone c List.mem_cons_self)
  refine attains_bind (Q := fun _ s' => s'.live = s.live)
    ((attains_keepsLive rfl s).mono (fun _ _ h => h) fun _ c s' h => h.1 ▸ trivial)
    fun _ s₁ h₁ => ?_
  have hactive₁ : s₁.journal.activeGenerationId = some generation.1.id :=
    (congrArg Live.active h₁).trans hactive
  set written : RuntimeState :=
    { state with desiredGenerationId := none, activationPhase := .idle } with hwritten
  have hkeeps : written.activeGenerationId = s₁.journal.activeGenerationId :=
    hstate.trans hactive₁.symm
  refine (attains_writeState hkeeps).mono (fun _ s' h => h.trans h₁) fun _ c s' h => ?_
  rw [h.1]
  exact ⟨hstate, rfl⟩

theorem missingBlobs_attains (present shas : List Sha) (s : DevStore) :
    Attains perform (missingBlobs present shas) s (fun _ s' => s'.live = s.live)
      fun _ c s' => ¬ LeavesNew generation new text c ∧ s'.live = s.live := by
  induction shas generalizing s with
  | nil => exact attains_pure rfl
  | cons sha shas ih =>
    unfold missingBlobs
    split
    · exact ih s
    · refine attains_bind (Q := fun _ s' => s'.live = s.live)
        ((attains_keepsLive rfl s).mono (fun _ _ h => h) fun _ c _ h => ⟨h.1 ▸ id, h.2⟩)
        fun _ s₁ h₁ => ?_
      refine attains_bind (Q := fun _ s' => s'.live = s.live) ?_ fun _ _ h => attains_pure h
      exact (ih s₁).mono (fun _ _ h => h.trans h₁) fun _ _ _ h => ⟨h.1, h.2.trans h₁⟩

theorem missingContent_attains (manifest : GenerationManifest) (site : Option SiteManifest)
    (s : DevStore) :
    Attains perform (missingContent manifest site) s (fun _ s' => s'.live = s.live)
      fun _ c s' => ¬ LeavesNew generation new text c ∧ s'.live = s.live := by
  refine attains_bind (missingBlobs_attains _ _ s) fun _ s₁ h₁ => ?_
  split
  · exact attains_pure h₁
  · refine attains_bind (Q := fun _ s' => s'.live = s.live) ?_ fun _ _ h => attains_pure h
    exact (attains_keepsLive rfl s₁).mono (fun _ _ h => h.trans h₁)
      fun _ c _ h => ⟨h.1 ▸ id, h.2.trans h₁⟩

end Phases

section Activation

variable {start s : DevStore} {generation : LoadedGeneration} {staged : Staged}
  {state : RuntimeState}

/-- What is live once the runtime has been rebuilt, if it was. -/
def Live.built (live : Live) (new : GenerationManifest) (rebuilt : Bool) : Live :=
  if rebuilt then { live with runtime := ⟨new.blocks, some live.runtime.blocks⟩ } else live

theorem validate_phase (hserves : s.live.Serves generation)
    (hstate : state.activeGenerationId = some generation.1.id) (site : Option SiteManifest) :
    Settles perform (SingleFault generation) (staged.validate state site) s []
      (Phase generation staged.manifest s.llms.text fun _ s' => s'.live = s.live) := by
  refine phase_bind (phase_journal hstate hserves (fun h => by cases h)) fun _ s₁ h₁ => ?_
  refine phase_bind (phase_keepsLive rfl id (h₁ ▸ hserves)) fun _ s₂ h₂ => ?_
  have hserves₂ : s₂.live.Serves generation := (h₂.trans h₁) ▸ hserves
  refine phase_bind (phase_of_attains hserves₂ (missingContent_attains _ _ s₂))
    fun missing s₃ h₃ => ?_
  have hlive : s₃.live = s.live := h₃.trans (h₂.trans h₁)
  split
  · exact settles_pure fun _ => ⟨rfl, hlive⟩
  · refine settles_refuse hstate (hlive ▸ hserves).active fun s' h' => ?_
    exact undone_of_serves ((h'.trans hlive) ▸ hserves) fun c hc => absurd hc List.not_mem_nil

theorem buildRuntime_phase (hserves : s.live.Serves generation)
    (hstate : state.activeGenerationId = some generation.1.id) :
    Settles perform (SingleFault generation) (staged.buildRuntime state) s []
      (Phase generation staged.manifest s.llms.text fun _ s' =>
        s'.live = s.live.built staged.manifest staged.rebuilds) := by
  unfold Staged.buildRuntime
  split
  · rename_i hrebuilds
    refine phase_bind (phase_journal hstate hserves (fun h => by cases h)) fun _ s₁ h₁ => ?_
    refine settles_attempt SingleFault.earlier
      (Q := fun _ s' => s'.live = s.live.built staged.manifest staged.rebuilds)
      (E := fun _ c s' => c = .rebuild staged.manifest.blocks ∧ s'.live = s.live)
      (attains_call (fun chance reply s' hperform => ?_) fun chance e s' hperform => ?_)
      (fun _ s' h => settles_pure fun _ => ⟨rfl, h⟩) fun e c s' h _ => ?_
    · have hanswer := answer_of_perform hperform
      simp only [answer] at hanswer
      split at hanswer <;> cases hanswer
      rw [← h₁, Live.built, if_pos hrebuilds]
      rfl
    · rw [perform_error hperform]
      exact ⟨rfl, h₁⟩
    · obtain ⟨rfl, hlive⟩ := h
      refine settles_refuse hstate (hlive ▸ hserves).active fun s'' h'' => ?_
      refine undone_of_serves ((h''.trans hlive) ▸ hserves) fun c hc => ?_
      rw [List.mem_singleton.mp hc]
      exact id
  · rename_i hrebuilds
    refine settles_pure fun _ => ⟨rfl, ?_⟩
    rw [Live.built, if_neg hrebuilds]

theorem Live.active_built (live : Live) (new : GenerationManifest) (rebuilt : Bool) :
    (live.built new rebuilt).active = live.active := by
  unfold Live.built
  split <;> rfl

theorem Live.folder_built (live : Live) (new : GenerationManifest) (rebuilt : Bool) :
    (live.built new rebuilt).folder = live.folder := by
  unfold Live.built
  split <;> rfl

theorem Live.llms_built (live : Live) (new : GenerationManifest) (rebuilt : Bool) :
    (live.built new rebuilt).llms = live.llms := by
  unfold Live.built
  split <;> rfl

/-- A rebuilt runtime runs other blocks. -/
theorem Live.not_serves_of_rebuilt {live : Live} {new : GenerationManifest}
    (hruntime : live.runtime.blocks = new.blocks)
    (hchanged : blockSetChanged (some generation.2) new) : ¬ live.Serves generation := by
  intro hserves
  have hsame : SameBlocks generation.2.blocks new.blocks := hruntime ▸ hserves.runtime.symm
  rw [blockSetChanged_eq_false_iff.mpr hsame] at hchanged
  cases hchanged

/-- The site of `new` has been published over that of `live`. -/
structure Live.Published (live live' : Live) (new : GenerationManifest) (rebuilt : Bool) :
    Prop where
  runtime : live'.runtime = (live.built new rebuilt).runtime
  folder : ∀ path, live'.folder.lookup path =
    contents (publishedView new.site live.llms.text) path
  text : live'.llms.text = live.llms.text
  active : live'.active = live.active

/-- What has been published is the old generation's exactly if nothing differs. -/
theorem Live.Published.serves_iff {live live' : Live} {new : GenerationManifest}
    (h : live.Published live' new (blockSetChanged (some generation.2) new))
    (hserves : live.Serves generation) :
    live'.Serves generation ↔ ¬ Differs generation new live.llms.text := by
  cases hchanged : blockSetChanged (some generation.2) new with
  | true =>
    have hruntime : live'.runtime.blocks = new.blocks := by
      rw [h.runtime, hchanged]
      rfl
    exact iff_of_false (Live.not_serves_of_rebuilt hruntime hchanged) fun hnot =>
      hnot (.inl hchanged)
  | false =>
    have hruntime : live'.runtime = live.runtime := by
      rw [h.runtime, hchanged]
      rfl
    constructor
    · rintro hserves' (hdiffer | hdiffer)
      · rw [hchanged] at hdiffer
        cases hdiffer
      · refine hdiffer fun path => ?_
        rw [← h.folder, hserves'.folder, h.text]
    · intro hnot
      have hsame : SameSite live.llms.text generation.2.site new.site := by
        by_contra hdiffer
        exact hnot (.inr hdiffer)
      refine ⟨h.active.trans hserves.active, hruntime ▸ hserves.runtime, fun path => ?_⟩
      rw [h.folder, h.text, hsame]

/-- A publish that is reached in full leaves the new site. -/
theorem published_of_reached {live : Live} {rebuilt : Bool} {s s' : DevStore}
    {new : GenerationManifest} {done : List Path}
    (hserves : live.Serves generation)
    (hrecord : live.llms.publishedSha256 =
      sandboxSha (publishedView generation.2.site live.llms.text))
    (hbuilt : s.live = live.built new rebuilt)
    (hall : ∀ path, (publishedBefore (some generation.2.site) s.llms.publishedSha256).lookup path ≠
      contents (publishedView new.site s.llms.text) path → path ∈ done)
    (hreached : Reached s (publishedBefore (some generation.2.site) s.llms.publishedSha256).lookup
      (contents (publishedView new.site s.llms.text)) done { s' with llms := s.llms })
    (hllms : s'.llms = ⟨s.llms.text, sandboxSha (publishedView new.site s.llms.text)⟩) :
    live.Published s'.live new rebuilt := by
  have hsame := hreached.same
  have hsllms : s.llms = live.llms := (congrArg Live.llms hbuilt).trans (live.llms_built _ _)
  have hsfolder : s.folder = live.folder :=
    (congrArg Live.folder hbuilt).trans (live.folder_built _ _)
  have hruntime : s'.runtime = s.runtime := by simpa using congrArg DevStore.runtime hsame
  have hjournal : s'.journal = s.journal := by simpa using congrArg DevStore.journal hsame
  refine ⟨hruntime.trans (congrArg Live.runtime hbuilt), fun path => ?_, ?_, ?_⟩
  · have hfolder := hreached.folder path
    rw [← hsllms]
    change s'.folder.lookup path = _
    change s'.folder.lookup path = _ at hfolder
    rw [hfolder]
    split
    · rfl
    · rename_i hkept
      have hagree := not_not.mp fun hdiffer => hkept (hall path hdiffer)
      rw [← hagree, hsfolder, hserves.folder, hsllms, hrecord, publishedBefore_of_record]
  · change s'.llms.text = _
    rw [hllms, hsllms]
  · change s'.journal.activeGenerationId = _
    rw [hjournal]
    exact (congrArg Live.active hbuilt).trans (live.active_built _ _)

/-- After a failed call no other fails. -/
theorem not_singleFault (c c' : DevCall) (failed : List DevCall) :
    ¬ SingleFault generation (c :: c' :: failed) := fun h =>
  absurd h.single (by simp)

/-- The old runtime is put back. -/
theorem restoreRuntime_settles {live : Live} {new : GenerationManifest} {rebuilt : Bool}
    (c : DevCall) (hruntime : s.runtime = (live.built new rebuilt).runtime) :
    Settles perform (SingleFault generation) (restoreRuntime rebuilt) s [c]
      fun result s' failed => result = .ok () ∧ failed = [c] ∧
        s' = { s with runtime := s'.runtime, clock := s'.clock } ∧
        s'.runtime.blocks = live.runtime.blocks := by
  unfold restoreRuntime
  split
  · rename_i hrebuilt
    rw [Live.built, if_pos hrebuilt] at hruntime
    refine settles_attempt SingleFault.earlier
      (Q := fun _ s' => s' = { s with runtime := s'.runtime, clock := s'.clock } ∧
        s'.runtime.blocks = live.runtime.blocks) (E := fun _ _ _ => True)
      (attains_call (fun chance reply s' hperform => ?_) fun _ _ _ _ => trivial)
      (fun _ s' h => settles_pure fun _ => ⟨rfl, rfl, h⟩)
      fun e c' s' _ hfault => absurd hfault (not_singleFault _ _ _)
    have hanswer := answer_of_perform hperform
    have hretained : (s.after chance.elapsed).runtime.retained = some live.runtime.blocks := by
      change s.runtime.retained = _
      rw [hruntime]
    simp only [answer, hretained] at hanswer
    cases hanswer
    exact ⟨rfl, rfl⟩
  · rename_i hrebuilt
    rw [Live.built, if_neg hrebuilt] at hruntime
    exact settles_pure fun _ => ⟨rfl, rfl, rfl, by rw [hruntime]⟩

/-- A publish that stops is undone, and what was live is live again. -/
theorem restore_settles {live : Live} {s s' : DevStore} {new : GenerationManifest}
    {rebuilt : Bool} {done : List Path} (c : DevCall) (hserves : live.Serves generation)
    (hrecord : live.llms.publishedSha256 =
      sandboxSha (publishedView generation.2.site live.llms.text))
    (hbuilt : s.live = live.built new rebuilt)
    (hreached : Reached s (publishedBefore (some generation.2.site) s.llms.publishedSha256).lookup
      (contents (publishedView new.site s.llms.text)) done s') :
    Settles perform (SingleFault generation) (restore new (some generation) rebuilt) s' [c]
      fun result s'' failed => result = .ok () ∧ failed = [c] ∧ s''.live.Serves generation := by
  have hsame := hreached.same
  have hsllms : s.llms = live.llms := (congrArg Live.llms hbuilt).trans (live.llms_built _ _)
  have hsfolder : s.folder = live.folder :=
    (congrArg Live.folder hbuilt).trans (live.folder_built _ _)
  have hruntime : s'.runtime = (live.built new rebuilt).runtime :=
    (congrArg DevStore.runtime hsame).trans (congrArg Live.runtime hbuilt)
  have hllms : s'.llms = live.llms := (congrArg DevStore.llms hsame).trans hsllms
  have hactive : s'.journal.activeGenerationId = live.active :=
    (congrArg (·.journal.activeGenerationId) hsame).trans
      ((congrArg Live.active hbuilt).trans (live.active_built _ _))
  refine (restoreRuntime_settles c hruntime).bind SingleFault.earlier (fun _ s₁ failed h₁ => ?_)
    fun _ _ _ h => absurd h.1 nofun
  obtain ⟨-, rfl, hs₁, hblocks⟩ := h₁
  have hllms₁ : s₁.llms = live.llms := (congrArg DevStore.llms hs₁).trans hllms
  have hfolder₁ : s₁.folder = s'.folder := by simpa using congrArg DevStore.folder hs₁
  have hactive₁ : s₁.journal.activeGenerationId = live.active :=
    (congrArg (·.journal.activeGenerationId) hs₁).trans hactive
  refine settles_attempt SingleFault.earlier
    (publishSite_attains s₁ (some new.site) generation.2.site) (fun _ s₂ h₂ => ?_)
    fun _ _ _ _ hfault => absurd hfault (not_singleFault _ _ _)
  obtain ⟨undone, hall, hback, hllms₂⟩ := h₂
  refine settles_pure fun _ => ⟨rfl, rfl, ?_⟩
  have hsame₂ := hback.same
  have hruntime₂ : s₂.runtime = s₁.runtime := by simpa using congrArg DevStore.runtime hsame₂
  have hjournal₂ : s₂.journal = s₁.journal := by simpa using congrArg DevStore.journal hsame₂
  refine ⟨?_, ?_, fun path => ?_⟩
  · change s₂.journal.activeGenerationId = _
    rw [hjournal₂, hactive₁, hserves.active]
  · change SameBlocks s₂.runtime.blocks _
    rw [hruntime₂, hblocks]
    exact hserves.runtime
  · change s₂.folder.lookup path = contents (publishedView _ s₂.llms.text) path
    rw [hllms₂, hllms₁]
    have hhalf : Overwritten live.folder (contents (publishedView new.site live.llms.text)) done
        s₁.folder := by
      rw [hfolder₁, ← hsfolder, ← hsllms]
      exact hreached.folder
    rw [hllms₁, hrecord] at hall
    rw [hllms₁] at hback
    exact restored ((mixed_of_left hserves.folder).overwritten hhalf) hall hback.folder path

theorem publish_phase (live : Live) (hprevious : staged.previous = some generation)
    (hserves : live.Serves generation)
    (hrecord : live.llms.publishedSha256 =
      sandboxSha (publishedView generation.2.site live.llms.text))
    (hstate : state.activeGenerationId = some generation.1.id)
    (hbuilt : s.live = live.built staged.manifest staged.rebuilds) :
    Settles perform (SingleFault generation) (staged.publish state) s []
      (Phase generation staged.manifest live.llms.text fun _ s' =>
        live.Published s'.live staged.manifest staged.rebuilds) := by
  have hrebuilds : staged.rebuilds = blockSetChanged (some generation.2) staged.manifest := by
    rw [Staged.rebuilds, hprevious]
    rfl
  have hactive : s.journal.activeGenerationId = some generation.1.id :=
    ((congrArg Live.active hbuilt).trans (live.active_built _ _)).trans hserves.active
  -- the journal write between the rebuild and the publish
  refine phase_bind (Q := fun _ s' => s'.live = s.live) ?_ fun _ s₁ h₁ => ?_
  · cases hchanged : staged.rebuilds with
    | false =>
      rw [hchanged] at hbuilt hrebuilds
      have hlive : s.live.Serves generation := hbuilt ▸ hserves
      exact phase_journal hstate hlive fun _ => hrebuilds.symm
    | true =>
      rw [hchanged] at hbuilt hrebuilds
      set written : RuntimeState :=
        { state with desiredGenerationId := some staged.row.id, activationPhase := .publishing }
        with hwritten
      have hkeeps : written.activeGenerationId = s.journal.activeGenerationId :=
        hstate.trans hactive.symm
      refine ((attains_writeState hkeeps) []).mono fun result x h _ => ?_
      obtain ⟨s', failed⟩ := x
      cases result with
      | ok a => exact h
      | error e =>
        obtain ⟨c, rfl, rfl, hlive⟩ := h
        have hnot : ¬ s'.live.Serves generation :=
          Live.not_serves_of_rebuilt (by rw [hlive, hbuilt]; rfl) hrebuilds.symm
        refine iff_of_false hnot fun h => h _ List.mem_cons_self ?_
        simp only [LeavesNew, hwritten, hstate, if_true]
        exact ⟨trivial, hrebuilds.symm⟩
  rw [← h₁] at hbuilt
  rw [hprevious]
  refine settles_attempt SingleFault.earlier
    (publishSite_attains s₁ (some generation.2.site) staged.manifest.site) (fun _ s₂ h₂ => ?_)
    fun e c s₂ h₂ _ => ?_
  · obtain ⟨done, hall, hreached, hllms⟩ := h₂
    exact settles_pure fun _ =>
      ⟨rfl, published_of_reached hserves hrecord hbuilt hall hreached hllms⟩
  · obtain ⟨hpublishes, done, hreached⟩ := h₂
    refine (restore_settles c hserves hrecord hbuilt hreached).bind SingleFault.earlier
      (fun _ s₃ failed h₃ => ?_) fun _ _ _ h => absurd h.1 nofun
    obtain ⟨-, rfl, hserves₃⟩ := h₃
    refine settles_refuse hstate hserves₃.active fun s' hlive => ?_
    refine undone_of_serves (hlive ▸ hserves₃) fun c' hc' => ?_
    rw [List.mem_singleton.mp hc']
    cases c <;> first | exact id | cases hpublishes

theorem commit_phase {live : Live} (hprevious : staged.previous = some generation)
    (hserves : live.Serves generation) (hid : staged.row.id ≠ generation.1.id)
    (hpublished : live.Published s.live staged.manifest staged.rebuilds) :
    Settles perform (SingleFault generation) (staged.commit state) s []
      (Phase generation staged.manifest live.llms.text fun _ s' =>
        s'.journal.activeGenerationId = some staged.row.id) := by
  have hrebuilds : staged.rebuilds = blockSetChanged (some generation.2) staged.manifest := by
    rw [Staged.rebuilds, hprevious]
    rfl
  rw [hrebuilds] at hpublished
  have hiff := hpublished.serves_iff hserves
  -- nothing that is live changes up to the last write, and each of them leaves the same behind
  have hstop : ∀ (c : DevCall) (s' : DevStore), s'.live = s.live →
      (LeavesNew generation staged.manifest live.llms.text c ↔
        Differs generation staged.manifest live.llms.text) →
      Undone generation staged.manifest live.llms.text s' [c] := by
    intro c s' hlive hleaves
    rw [Undone, hlive, hiff]
    simp only [List.mem_singleton, forall_eq, hleaves]
  refine phase_bind (Q := fun _ s' => s'.live = s.live) ?_ fun _ s₁ h₁ => ?_
  · refine ((attains_keepsLive rfl s) []).mono fun result x h _ => ?_
    obtain ⟨s', failed⟩ := x
    cases result with
    | ok _ => exact h
    | error e =>
      obtain ⟨c, rfl, rfl, hlive⟩ := h
      exact hstop _ _ hlive Iff.rfl
  have hsupersede : staged.supersede = call (.setStatus generation.1.id .superseded) := by
    rw [Staged.supersede, hprevious, Option.filter_some, if_pos]
    simpa using hid.symm
  refine phase_bind (Q := fun _ s' => s'.live = s.live) ?_ fun _ s₂ h₂ => ?_
  · rw [hsupersede]
    refine ((attains_keepsLive rfl s₁) []).mono fun result x h _ => ?_
    obtain ⟨s', failed⟩ := x
    cases result with
    | ok _ => exact ⟨h.1, h.2.trans h₁⟩
    | error e =>
      obtain ⟨c, rfl, rfl, hlive⟩ := h
      exact hstop _ _ (hlive.trans h₁) Iff.rfl
  refine (attains_call (P := fun _ s' => s'.journal.activeGenerationId = some staged.row.id)
    (E := fun _ c s' => c = .writeState
      ⟨some staged.row.id, none, .idle, saturatingSucc state.generation⟩ ∧ s'.live = s₂.live)
    (fun chance _ s' hperform => ?_) (fun chance e s' hperform => ?_) []).mono
    fun result x h _ => ?_
  · cases answer_of_perform hperform
    rfl
  · rw [perform_error hperform]
    exact ⟨rfl, rfl⟩
  · obtain ⟨s', failed⟩ := x
    cases result with
    | ok _ => exact h
    | error e =>
      obtain ⟨c, rfl, rfl, hlive⟩ := h
      refine hstop _ _ (hlive.trans h₂) ?_
      simp only [LeavesNew, Option.some.injEq, if_neg hid]

/-- A maintenance pass changes nothing of what is live, and reports no failure. -/
theorem scheduleMaintenance_keeps (maintenance : Maintenance) (s : DevStore)
    (failed : List DevCall) :
    (scheduleMaintenance maintenance).run.Ensures (recording perform) (s, failed) fun result x =>
      result = .ok () ∧ x.1.live = s.live := by
  cases maintenance with
  | deferred => exact ⟨rfl, rfl⟩
  | «inline» turns =>
    refine maintain_keeps (I := fun s' => s'.live = s.live) turns (fun chance c s' hc hs' => ?_)
      rfl failed
    refine (live_of_perform ?_ chance s').trans hs'
    cases c <;> first | rfl | cases hc

/-- What is to be shown of an activation that returns an error. -/
def Closing {α : Type} (generation : LoadedGeneration) (new : GenerationManifest)
    (text : Option Sha) (result : Except ActivationError α) (s : DevStore)
    (failed : List DevCall) : Prop :=
  ∀ e, result = .error e → (∀ id, e ≠ .rollbackNotAdopted id) →
    Undone generation new text s failed

/-- One phase, and what follows it. -/
theorem closing_bind {α β : Type} {new : GenerationManifest} {text : Option Sha} {p : Task β}
    {f : β → Task α} {Q : β → DevStore → Prop}
    (hp : Settles perform (SingleFault generation) p s [] (Phase generation new text Q))
    (hf : ∀ b s', Q b s' →
      Settles perform (SingleFault generation) (f b) s' [] (Closing generation new text)) :
    Settles perform (SingleFault generation) (p >>= f) s [] (Closing generation new text) := by
  refine hp.bind SingleFault.earlier (fun b s' failed' h => ?_) fun _ _ _ h _ _ _ => h
  obtain ⟨rfl, hmid⟩ := h
  exact hf b s' hmid

/-- After the commit the new generation is live, whatever is answered. -/
theorem committed_closing {new : GenerationManifest} {text : Option Sha} {id : ℕ}
    (maintenance : Maintenance) (hid : id ≠ generation.1.id)
    (hactive : s.journal.activeGenerationId = some id) :
    Settles perform (SingleFault generation)
      (do scheduleMaintenance maintenance; call (.getGeneration id)) s []
      (Closing generation new text) := by
  refine Program.ensures_bind.mpr (Program.Ensures.mono
    (scheduleMaintenance_keeps maintenance s []) fun result x h => ?_)
  obtain ⟨rfl, hlive⟩ := h
  refine ((attains_keepsLive rfl x.1) x.2).mono fun result y h _ e he _ => ?_
  subst he
  obtain ⟨c, hfailed, rfl, hlive'⟩ := h
  rw [hfailed]
  refine iff_of_false (fun hserves => hid ?_) fun hnot => hnot _ List.mem_cons_self hid
  have hboth : some id = some generation.1.id :=
    (hactive.symm.trans (congrArg Live.active (hlive'.trans hlive)).symm).trans hserves.active
  exact Option.some.inj hboth

theorem activateStaged_closing (staged : Staged) (hprevious : staged.previous = some generation)
    (hserves : s.live.Serves generation)
    (hrecord : s.llms.publishedSha256 =
      sandboxSha (publishedView generation.2.site s.llms.text))
    (hstate : state.activeGenerationId = some generation.1.id)
    (hid : staged.row.id ≠ generation.1.id) (site : Option SiteManifest)
    (maintenance : Maintenance) :
    Settles perform (SingleFault generation) (activateStaged staged site state maintenance) s []
      (Closing generation staged.manifest s.llms.text) := by
  refine closing_bind (validate_phase hserves hstate site) fun _ s₁ h₁ => ?_
  have hserves₁ : s₁.live.Serves generation := h₁ ▸ hserves
  refine closing_bind (phase_keepsLive rfl id hserves₁) fun _ s₂ h₂ => ?_
  have hlive₂ : s₂.live = s.live := h₂.trans h₁
  have htext : s₂.llms.text = s.llms.text := congrArg (·.llms.text) hlive₂
  rw [← htext]
  refine closing_bind (buildRuntime_phase (hlive₂ ▸ hserves) hstate) fun _ s₃ h₃ => ?_
  rw [hlive₂] at h₃
  rw [htext]
  refine closing_bind (publish_phase s.live hprevious hserves hrecord hstate h₃) fun _ s₄ h₄ => ?_
  refine closing_bind (commit_phase hprevious hserves hid h₄) fun _ s₅ h₅ => ?_
  exact committed_closing maintenance hid h₅

/-! ### Up to the staging -/

/-- Only time has passed and locks were taken. -/
def Waited (s s' : DevStore) : Prop := s' = { s with held := s'.held, clock := s'.clock }

theorem Waited.live {s s' : DevStore} (h : Waited s s') : s'.live = s.live := by
  rw [h]
  rfl

theorem Waited.reads {s s₁ : DevStore} (h : Waited s s₁) {c : DevCall} (hc : c.reads) :
    Attains perform (call c) s₁
      (fun reply s' => Waited s s' ∧ ∃ chance,
        answer chance c (s₁.after chance.elapsed) = (.ok reply, s'))
      fun _ c' s' => c' = c ∧ s'.live = s.live := by
  have hlater : ∀ chance, Waited s (perform chance c s₁).2 := by
    intro chance
    rw [perform_reads hc, Waited, h]
    rfl
  refine attains_call (fun chance reply s' hperform => ?_) fun chance e s' hperform => ?_
  · have hs' := hlater chance
    rw [hperform] at hs'
    exact ⟨hs', chance, answer_of_perform hperform⟩
  · have hs' := hlater chance
    rw [hperform] at hs'
    exact ⟨rfl, hs'.live⟩

/-- A program under a lock. -/
theorem attains_holding {α : Type} {lock : Lock} {p : Task α} {R : DevStore → Prop}
    {P : α → DevStore → Prop} {E : ActivationError → DevCall → DevStore → Prop}
    (hlock : ∀ chance, R (perform chance (.lock lock) s).2)
    (hp : ∀ s', R s' → Attains perform p s' P E)
    (hgood : ∀ chance a s', P a s' → P a (perform chance (.unlock lock) s').2)
    (hbad : ∀ chance e c s', E e c s' → E e c (perform chance (.unlock lock) s').2) :
    Attains perform (holding lock p) s P E := by
  intro failed
  refine ensures_call (fun chance _ _ => ?_) fun chance e h => by cases h
  refine Program.ensures_bind.mpr (Program.ensures_bind.mpr (Program.Ensures.mono
    (hp _ (hlock chance) failed) fun result x h => ?_))
  intro chance'
  obtain ⟨s', failed'⟩ := x
  cases result with
  | ok a => exact ⟨h.1, hgood chance' a s' h.2⟩
  | error e =>
    obtain ⟨c, hfailed, h⟩ := h
    exact ⟨c, hfailed, hbad chance' e c s' h⟩

variable {intent : ActivationIntent}

/-- The manifest is composed of what the store holds. -/
theorem compose_attains {s₁ : DevStore} (h : Waited s s₁) :
    Attains perform (compose intent (some generation)) s₁
      (fun manifest s' => Waited s s' ∧ manifest = composed s generation intent)
      fun _ c s' => c = .loadWorkspace ∧ s'.live = s.live := by
  have hsite : Attains perform workspaceSite s₁
      (fun site s' => Waited s s' ∧ site = s.workspace.siteManifest)
      fun _ c s' => c = .loadWorkspace ∧ s'.live = s.live := by
    refine attains_bind (h.reads rfl) fun ws s' h' => attains_pure ?_
    obtain ⟨hs', chance, hanswer⟩ := h'
    cases hanswer
    refine ⟨hs', ?_⟩
    change s₁.workspace.siteManifest = _
    rw [h]
  cases intent with
  | siteOnly =>
    refine attains_bind hsite fun site s' h' => attains_pure ⟨h'.1, ?_⟩
    rw [h'.2]
    rfl
  | blockSet site blocks =>
    cases site with
    | some site => exact attains_pure ⟨h, rfl⟩
    | none =>
      refine attains_bind hsite fun site s' h' => attains_pure ⟨h'.1, ?_⟩
      rw [h'.2]
      rfl
  | rollback target => exact attains_pure ⟨h, rfl⟩
  | seed manifest => exact attains_pure ⟨h, rfl⟩

theorem stageGeneration_attains (intent : ActivationIntent) {cause : GenerationCause}
    {s₁ : DevStore} (h : Waited s s₁)
    (hdrawn : generation.1.id ∈ s.ids) :
    Attains perform (stageGeneration cause intent (some generation)) s₁
      (fun loaded s' => s'.live = s.live ∧ loaded.2 = composed s generation intent ∧
        loaded.1.id ≠ generation.1.id)
      fun _ c s' => ¬ LeavesNew generation (composed s generation intent) s.llms.text c ∧
        s'.live = s.live := by
  refine attains_bind ((compose_attains h).mono (fun _ _ h => h) fun _ c _ h => ⟨h.1 ▸ id, h.2⟩)
    fun manifest s₂ h₂ => ?_
  obtain ⟨hs₂, rfl⟩ := h₂
  refine attains_bind (Q := fun id s' => s'.live = s.live ∧ id ≠ generation.1.id)
    (attains_call (fun chance id s' hperform => ?_) fun chance e s' hperform => by cases hperform)
    fun id s₃ h₃ => ?_
  · cases answer_of_perform hperform
    refine ⟨hs₂.live, fun hid => freshId_not_mem (s₂.after chance.elapsed) chance.uuid ?_⟩
    rw [hid]
    change generation.1.id ∈ s₂.ids
    rw [hs₂]
    exact hdrawn
  · refine attains_bind (Q := fun row s' => s'.live = s.live ∧ row.id ≠ generation.1.id)
      (attains_call (fun chance row s' hperform => ?_) fun chance e s' hperform => ?_)
      fun row s₄ h₄ => attains_pure ⟨h₄.1, rfl, h₄.2⟩
    · have hanswer := answer_of_perform hperform
      simp only [answer] at hanswer
      split at hanswer <;> cases hanswer
      exact h₃
    · rw [perform_error hperform]
      exact ⟨fun h => h, h₃.1⟩

end Activation

/-! ### The whole activation -/

section Whole

variable {s : DevStore} {generation : LoadedGeneration}

theorem loadPrevious_attains (hrest : AtRest s generation) {s₁ : DevStore} (h : Waited s s₁) :
    Attains perform (loadPrevious s.journal) s₁
      (fun previous s' => Waited s s' ∧ previous = some generation)
      fun _ c s' => c = .getGeneration generation.1.id ∧ s'.live = s.live := by
  have hactive : s.journal.activeGenerationId = some generation.1.id := hrest.serves.active
  rw [loadPrevious, hactive]
  refine attains_bind (h.reads rfl) fun row s' h' => ?_
  obtain ⟨hs', chance, hanswer⟩ := h'
  have hrow : (s₁.after chance.elapsed).generations.get? generation.1.id = some generation.1 := by
    change s₁.generations.get? _ = _
    rw [h]
    exact hrest.row
  simp only [answer, hrow] at hanswer
  cases hanswer
  rw [hrest.manifest]
  exact attains_pure ⟨hs', rfl⟩

/-- What an activation leaves that starts at rest. -/
theorem activate_closing (hrest : AtRest s generation) (cause : GenerationCause)
    (intent : ActivationIntent) (maintenance : Maintenance) :
    Settles perform (SingleFault generation) (activate cause intent maintenance) s []
      (Closing generation (composed s generation intent) s.llms.text) := by
  have hserves := hrest.serves
  have hwaited : Waited s s := rfl
  refine closing_bind (phase_of_attains (P := fun state s' => Waited s s' ∧ state = s.journal)
    hserves ?_) fun state s₁ h₁ => ?_
  · refine (hwaited.reads rfl).mono (fun state s' h => ?_) fun _ c _ h => ⟨h.1 ▸ id, h.2⟩
    obtain ⟨hs', chance, hanswer⟩ := h
    cases hanswer
    exact ⟨hs', rfl⟩
  obtain ⟨hs₁, rfl⟩ := h₁
  refine closing_bind (phase_of_attains (hs₁.live ▸ hserves)
    ((loadPrevious_attains hrest hs₁).mono (fun _ _ h => h) fun _ c s' h =>
      ⟨h.1 ▸ not_not.mpr rfl, h.2.trans hs₁.live.symm⟩)) fun previous s₂ h₂ => ?_
  obtain ⟨hs₂, rfl⟩ := h₂
  refine closing_bind (phase_of_attains (hs₂.live ▸ hserves)
    (attains_holding (R := Waited s) (fun chance => ?_)
      (fun s' hs' => (stageGeneration_attains intent hs' hrest.drawn).mono
        (fun _ _ h => h) fun _ c s'' h => ⟨h.1, h.2.trans hs₂.live.symm⟩)
      (fun chance loaded s' h => h) fun chance e c s' h => h)) fun loaded s₃ h₃ => ?_
  · rw [Waited, hs₂]
    rfl
  obtain ⟨row, manifest⟩ := loaded
  obtain ⟨hlive, hmanifest, hid⟩ := h₃
  dsimp only at hmanifest hid ⊢
  subst hmanifest
  have htext : s₃.llms.text = s.llms.text := congrArg (·.llms.text) hlive
  have hllms : s₃.llms = s.llms := congrArg Live.llms hlive
  rw [← htext]
  refine Settles.bind SingleFault.earlier (activateStaged_closing
    ⟨row, composed s generation intent, some generation⟩ rfl (hlive ▸ hserves)
    (by rw [hllms]; exact hrest.record) hserves.active hid _ maintenance)
    (fun activated s₄ failed _ => ?_) fun e s₄ failed h => h
  -- what is left can only fail as a rollback that was not adopted
  cases intent with
  | rollback target =>
    refine Program.ensures_bind.mpr (Program.ensures_bind.mpr (Program.ensures_bind.mpr
      ((recording_grows _ s₄ failed).mono fun adopted x _ => ?_)))
    cases adopted with
    | ok _ => exact fun _ e he => by cases he
    | error _ =>
      intro _ e he hnot
      cases he
      exact absurd rfl (hnot row.id)
  | siteOnly | blockSet _ _ | seed _ => exact fun _ e he => by cases he

end Whole

/-- A failed activation that starts at rest, and of whose calls one fails at most and none that is
made to undo, leaves what was live exactly if that call is not one of those that leave something
of the new generation behind. -/
theorem failed_activation_iff {s : DevStore} {generation : LoadedGeneration}
    (hrest : AtRest s generation) (cause : GenerationCause) (intent : ActivationIntent)
    (maintenance : Maintenance) (chances : ℕ → Chance) {e : ActivationError} {s' : DevStore}
    {failed : List DevCall}
    (hrun : (activate cause intent maintenance).run.run (recording perform) chances (s, []) =
      (.error e, (s', failed)))
    (hadopted : ∀ id, e ≠ .rollbackNotAdopted id) (hfault : SingleFault generation failed) :
    s'.live.Serves generation ↔
      ∀ c ∈ failed, ¬ LeavesNew generation (composed s generation intent) s.llms.text c := by
  have hsettles := (activate_closing hrest cause intent maintenance).run chances
  rw [hrun] at hsettles
  exact hsettles hfault e rfl hadopted

/-! ### An edit whose commit fails -/

/-- The first generation of an instance: a page and no blocks. -/
def first : LoadedGeneration :=
  let manifest : GenerationManifest := ⟨[⟨["index.html"], 1, 1⟩], []⟩
  (⟨1, .active, .siteWrite, some manifest, 0⟩, manifest)

/-- The instance that serves it, after the page was edited in the workspace. -/
def edited : DevStore where
  generations := ⟨[first.1], by decide⟩
  journal := ⟨some 1, none, .idle, 1⟩
  builds := ⟨[], by decide⟩
  llms := ⟨none, none⟩
  folder := (Folder.empty.put ["index.html"] 1).getD .empty
  blobs := (∅ : AList fun _ : Sha => ℕ).insert 1 1 |>.insert 2 1
  artifacts := ∅
  workspace := Workspace.empty.insert ["site", "index.html"] 2 1
  runtime := ⟨[], none⟩
  held := fun _ => false
  ids := [1]
  clock := 0

theorem edited_atRest : AtRest edited first where
  serves := ⟨rfl, fun _ => rfl, fun path => by
    rw [contents_publishedView]
    rfl⟩
  record := rfl
  desired := rfl
  phase := rfl
  row := rfl
  manifest := rfl
  status := rfl
  drawn := by decide

/-- The run of the edit's activation in which the sixteenth call fails, and no other. -/
def cutEdit : Except ActivationError GenerationRow × (DevStore × List DevCall) :=
  (activate .siteWrite .siteOnly .deferred).run.run (recording perform)
    (fun n => ⟨n == 15, 1, 2, true⟩) (edited, [])

theorem cutEdit_eq : cutEdit =
    (.error (.storage .internal), (cutEdit.2.1, [.setStatus 2 .active])) := rfl

theorem singleFault_cutEdit : SingleFault first [.setStatus 2 .active] where
  single := Nat.le_refl 1
  undone := fun c hc => by
    rw [List.mem_singleton.mp hc]
    exact id

/-- The status write of the commit fails: the edit is reported as failed, and its page is served. -/
theorem failed_activation_serves_new :
    AtRest edited first ∧
      (activate .siteWrite .siteOnly .deferred).run.run (recording perform)
        (fun n => ⟨n == 15, 1, 2, true⟩) (edited, []) =
          (.error (.storage .internal), (cutEdit.2.1, [.setStatus 2 .active])) ∧
      SingleFault first [.setStatus 2 .active] ∧
      cutEdit.2.1.live.active = some first.1.id ∧ ¬ cutEdit.2.1.live.Serves first := by
  refine ⟨edited_atRest, cutEdit_eq, singleFault_cutEdit, rfl, fun hserves => ?_⟩
  have hpage := hserves.folder ["index.html"]
  rw [contents_publishedView] at hpage
  have hnew : cutEdit.2.1.live.folder.lookup ["index.html"] = some 2 := rfl
  rw [hnew] at hpage
  cases hpage

theorem failed_activation_iff_cutEdit :
    cutEdit.2.1.live.Serves first ↔ ∀ c ∈ [DevCall.setStatus 2 .active],
      ¬ LeavesNew first (composed edited first .siteOnly) none c :=
  failed_activation_iff edited_atRest .siteWrite .siteOnly .deferred
    (fun n => ⟨n == 15, 1, 2, true⟩) cutEdit_eq (fun _ => nofun) singleFault_cutEdit

end Dev
