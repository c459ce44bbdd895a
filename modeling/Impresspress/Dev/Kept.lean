import Impresspress.Dev.Frames
import Impresspress.Dev.Halted
import Impresspress.Dev.Limits

/-!
# What requests keep

Each request to the files, the blocks and the generations endpoints, and each maintenance pass,
leaves the workspace within its limits, provided that a rollback finds room for the site it brings
back: a rollback takes a site over without a look at the number of files.

## Main definitions

* `Dev.FilesRequest`, `Dev.Reachable`: requests, and what successful ones lead to.
* `Dev.WithinLimits`: the limits.
* `Dev.FilesRequest.FindsRoom`: the condition on a rollback.
* `Dev.Kept`: what holds between two requests.

## Main results

* `Dev.Kept.storesAll`, `Dev.Kept.rollsBack`, `Dev.Kept.collects`: files, rollbacks, collections.
-/

namespace Dev

open Concurrent Concurrent.Fallible Workspace

/-- How the store answers when no call fails. It may still refuse one. -/
def unfailing (chance : Chance) (c : DevCall) (s : DevStore) :
    Outcome ActivationError Reply c × DevStore :=
  answer chance c (s.after chance.elapsed)

/-- Where no call fails and the program succeeds, `post` holds at its end. -/
def Arrives {α : Type} (p : Task α) (s : DevStore) (post : α → DevStore → Prop) : Prop :=
  Reaches unfailing (fun _ _ _ => True) p s post

inductive FilesRequest
  | write (request : FileWriteRequest)
  | writeBatch (files : List FileWriteRequest)
  | create (name : String) (template : TemplateFiles)
  | delete (path : String) (expected : Sha)
  | rollback (id : ℕ)
  | collect (turns : ℕ)

/-- What serves the request. A collection is the pass that an activation or a delete leaves to a
task of its own. -/
def FilesRequest.program (rules : BypassRules) : FilesRequest → Task (Except WriteRefusal Unit)
  | .write request => serveWrite rules request
  | .writeBatch files => serveWriteBatch rules files
  | .create name template => handleCreate name template
  | .delete path expected => serveDelete path expected
  | .rollback id => do
    handleRollback id
    pure (.ok ())
  | .collect turns => do
    maintain turns
    pure (.ok ())

/-- The request was served, and succeeded, without a failed call. -/
def FilesRequest.Served (rules : BypassRules) (request : FilesRequest) (s s' : DevStore) : Prop :=
  ∃ chances, (request.program rules).run.run unfailing chances s = (.ok (.ok ()), s')

/-- An instance whose workspace is empty, and on which nothing was published yet. -/
structure Fresh (s : DevStore) : Prop where
  workspace : s.workspace = .empty
  blobs : s.blobs = ∅
  generations : ∀ id, s.generations.get? id = none

/-- What successful requests lead to from an empty workspace, each of them admitted. -/
inductive Reachable (rules : BypassRules) (admits : FilesRequest → DevStore → Prop) :
    DevStore → Prop
  | fresh {s : DevStore} : Fresh s → Reachable rules admits s
  | served {s s' : DevStore} {request : FilesRequest} : Reachable rules admits s →
      admits request s → request.Served rules s s' → Reachable rules admits s'

/-- The limits of the workspace. -/
structure WithinLimits (s : DevStore) : Prop where
  fits : s.workspace.Fits
  bytes : s.workspace.blobBytes = totalBytes s.blobs
  quota : s.workspace.blobBytes ≤ maxWorkspaceBytes

/-- A rollback finds room beside the files of the blocks for the site it brings back. -/
def FilesRequest.FindsRoom : FilesRequest → DevStore → Prop
  | .rollback id, s => ∀ row ∈ s.generations.get? id, ∀ target ∈ row.manifest,
      s.workspace.otherFiles + target.site.length ≤ maxFiles
  | _, _ => True

/-! ## What holds between two requests -/

/-- Every retained generation has a site that the workspace may take over. -/
def History (s : DevStore) : Prop :=
  ∀ id, ∀ row ∈ s.generations.get? id, ∀ manifest ∈ row.manifest, SiteFits manifest.site

structure Kept (s : DevStore) : Prop extends WithinLimits s where
  stored : Stored s.workspace s.blobs
  history : History s

/-- The workspace and the blobs are those of `s`, and the history is one to go back to. -/
structure Spared (s s' : DevStore) : Prop where
  workspace : s'.workspace = s.workspace
  blobs : s'.blobs = s.blobs
  history : History s'

/-- The calls that spare the workspace, the blobs and what the generations publish. -/
def DevCall.spares : DevCall → Bool
  | .insertGeneration _ | .saveWorkspace _ | .putBlob .. | .deleteBlob _ => false
  | _ => true

section Spared

variable {s s₀ : DevStore} {α β : Type}

theorem Kept.spared (h : Kept s) {s' : DevStore} (hspared : Spared s s') : Kept s' where
  fits := by
    rw [hspared.workspace]
    exact h.fits
  bytes := by
    rw [hspared.workspace, hspared.blobs]
    exact h.bytes
  quota := by
    rw [hspared.workspace]
    exact h.quota
  stored := by
    rw [hspared.workspace, hspared.blobs]
    exact h.stored
  history := hspared.history

theorem Kept.refl (h : Kept s) : Spared s s := ⟨rfl, rfl, h.history⟩

theorem Spared.trans {s₁ s₂ : DevStore} (h : Spared s s₁) (h' : Spared s₁ s₂) : Spared s s₂ :=
  ⟨h'.workspace.trans h.workspace, h'.blobs.trans h.blobs, h'.history⟩

theorem History.unfailing {c : DevCall} (hc : c.spares) (chance : Chance) (h : History s) :
    History (unfailing chance c s).2 := by
  have hsame : c.part ≠ some .generations → History (Dev.unfailing chance c s).2 := by
    intro hpart id row hrow
    rw [Dev.unfailing, (untouched_answer chance c _).generations hpart] at hrow
    exact h id row hrow
  cases c with
  | setStatus target status =>
    unfold Dev.unfailing answer
    dsimp only
    split
    · rename_i generations hset
      intro id row hrow manifest hmanifest
      dsimp only at hrow
      rw [get?_setStatus hset] at hrow
      split at hrow
      · obtain ⟨old, hold, rfl⟩ := Option.map_eq_some_iff.mp hrow
        exact h _ old hold manifest hmanifest
      · exact h id row hrow manifest hmanifest
    · exact h
  | deleteMany ids =>
    intro id row hrow
    unfold Dev.unfailing answer at hrow
    dsimp only at hrow
    rw [get?_deleteMany] at hrow
    split at hrow
    · cases hrow
    · exact h id row hrow
  | insertGeneration | saveWorkspace | putBlob | deleteBlob => cases hc
  | _ => exact hsame fun h => by cases h

theorem Spared.unfailing {c : DevCall} (hc : c.spares) (chance : Chance) (h : Spared s₀ s) :
    Spared s₀ (unfailing chance c s).2 := by
  have huntouched := untouched_answer chance c (s.after chance.elapsed)
  refine ⟨(huntouched.workspace ?_).trans h.workspace, (huntouched.blobs ?_).trans h.blobs,
    h.history.unfailing hc chance⟩ <;>
  · cases c with
    | insertGeneration | saveWorkspace | putBlob | deleteBlob => cases hc
    | _ => nofun

theorem Spared.only {p : Task α} (hp : p.run.Only fun c => c.spares = true) (h : Spared s₀ s) :
    Arrives p s fun _ s' => Spared s₀ s' :=
  (passes_only hp (fun chance _ _ hc => Spared.unfailing hc chance) h).mono (fun _ _ _ _ => trivial)
    (fun _ _ h => h) fun _ _ _ => trivial

theorem arrives_bind {p : Task β} {f : β → Task α} {M : β → DevStore → Prop}
    {post : α → DevStore → Prop} (hp : Arrives p s M) (hf : ∀ b t, M b t → Arrives (f b) t post) :
    Arrives (p >>= f) s post := reaches_bind hp hf

theorem arrives_pure {a : α} {post : α → DevStore → Prop} (h : post a s) :
    Arrives (pure a) s post := reaches_pure h

theorem arrives_throw {e : ActivationError} {post : α → DevStore → Prop} :
    Arrives (throw e) s post := reaches_throw

theorem Arrives.mono {p : Task α} {post post' : α → DevStore → Prop} (h : Arrives p s post)
    (hpost : ∀ a s, post a s → post' a s) : Arrives p s post' := Reaches.mono h hpost

/-- A call, and what follows it. -/
theorem arrives_call {c : DevCall} {f : Reply c → Task α} {post : α → DevStore → Prop}
    (hf : ∀ chance reply, (unfailing chance c s).1 = .ok reply →
      Arrives (f reply) (unfailing chance c s).2 post) :
    Arrives (call c >>= f) s post :=
  reaches_bind (M := fun reply s' => Arrives (f reply) s' post)
    (reaches_call (fun _ => trivial) hf) fun _ _ h => h

/-- A program under a lock. -/
theorem arrives_holding {lock : Lock} {p : Task α} {post : α → DevStore → Prop}
    (hp : ∀ chance, Arrives p (unfailing chance (.lock lock) s).2 fun a s' =>
      ∀ chance, post a (unfailing chance (.unlock lock) s').2) :
    Arrives (holding lock p) s post := by
  refine arrives_call fun chance _ _ => ?_
  refine reaches_attempt (B := fun _ _ => True) (hp chance) (fun a t ht => ?_) fun e t _ => ?_
  · exact arrives_call fun chance _ _ => ht chance
  · exact arrives_call fun _ _ _ => arrives_throw

end Spared

/-! ## Activations -/

section Activations

variable {s s₀ : DevStore} {staged : Staged} {state : RuntimeState}

theorem spares_of_keepsHalfway (c : DevCall) (h : c.keepsHalfway = true) : c.spares = true := by
  cases c <;> first | rfl | exact h

theorem spares_of_publishes (c : DevCall) (h : c.publishes = true) : c.spares = true := by
  cases c <;> first | rfl | exact h

theorem refuse_spares {α : Type} (id : ℕ) (e : ActivationError) :
    (refuse id state e : Task α).run.Only fun c => c.spares = true :=
  only_bind (only_bind (only_call rfl) fun _ => only_call rfl) fun _ => only_throw _

theorem publishSite_spares (prev : Option SiteManifest) (next : SiteManifest) :
    (publishSite prev next).run.Only fun c => c.spares = true := by
  have hremove : ∀ path, (remove path).run.Only fun c => c.spares = true := fun path =>
    only_bind (only_call rfl) fun _ => only_pure _
  have hwrite : ∀ path file, (write path file).run.Only fun c => c.spares = true := by
    intro path file
    refine only_bind ?_ fun _ => only_call rfl
    cases file with
    | site entry => exact only_call rfl
    | sandbox sha256 => exact only_pure _
  refine only_bind (only_call rfl) fun recorded => ?_
  refine only_bind (only_forM fun path _ => hremove path) fun _ => ?_
  refine only_bind (only_forM fun file _ => hwrite _ _) fun _ => ?_
  refine only_bind (only_forM fun path _ => hremove path) fun _ => ?_
  refine only_bind (only_forM fun file _ => hwrite _ _) fun _ => ?_
  dsimp only
  split
  · exact only_bind (only_call rfl) fun _ => only_pure _
  · exact only_pure _

theorem restore_spares (attempted : GenerationManifest) (previous : Option LoadedGeneration)
    (rebuilt : Bool) : (restore attempted previous rebuilt).run.Only fun c => c.spares = true := by
  refine only_bind ?_ fun _ => only_bind (only_attempt (publishSite_spares _ _)) fun _ =>
    only_pure _
  unfold restoreRuntime
  split
  · exact only_bind (only_attempt (only_call rfl)) fun _ => only_pure _
  · exact only_pure _

theorem buildRuntime_spares :
    (staged.buildRuntime state).run.Only fun c => c.spares = true := by
  unfold Staged.buildRuntime
  split
  · refine only_bind (only_call rfl) fun _ => only_bind (only_attempt (only_call rfl)) fun built => ?_
    cases built with
    | ok _ => exact only_pure _
    | error e => exact refuse_spares _ _
  · exact only_pure _

theorem publish_spares : (staged.publish state).run.Only fun c => c.spares = true := by
  refine only_bind (only_call rfl) fun _ =>
    only_bind (only_attempt (publishSite_spares _ _)) fun published => ?_
  cases published with
  | ok _ => exact only_pure _
  | error e => exact only_bind (restore_spares _ _ _) fun _ => refuse_spares _ _

theorem commit_spares : (staged.commit state).run.Only fun c => c.spares = true := by
  refine only_bind (only_call rfl) fun _ => only_bind ?_ fun _ => only_call rfl
  unfold Staged.supersede
  split
  · exact only_call rfl
  · exact only_pure _

theorem arrives_refuse {α : Type} (id : ℕ) (e : ActivationError) {post : α → DevStore → Prop} :
    Arrives (refuse id state e : Task α) s post := by
  refine arrives_bind (M := fun _ _ => True) ?_ fun _ _ _ => arrives_throw
  exact arrives_call fun _ _ _ => reaches_call (fun _ => trivial) fun _ _ _ => trivial

/-- A probe that finds nothing missing has found all that is not taken as present. -/
theorem missingBlobs_arrives (h : Spared s₀ s) (present shas : List Sha) :
    Arrives (missingBlobs present shas) s fun missing s' => Spared s₀ s' ∧
      (missing = [] → ∀ sha ∈ shas, sha ∈ present ∨ sha ∈ s₀.blobs) := by
  induction shas generalizing s with
  | nil => exact arrives_pure ⟨h, fun _ => nofun⟩
  | cons sha shas ih =>
    unfold missingBlobs
    split
    · rename_i hpresent
      refine (ih h).mono fun missing t ht => ⟨ht.1, fun hnone sha' hsha' => ?_⟩
      rcases List.mem_cons.mp hsha' with rfl | hsha'
      · exact .inl (by simpa using hpresent)
      · exact ht.2 hnone sha' hsha'
    · refine arrives_call fun chance stored hstored => ?_
      refine arrives_bind (ih (h.unfailing rfl chance)) fun missing t ht => ?_
      refine arrives_pure ⟨ht.1, fun hnone sha' hsha' => ?_⟩
      cases stored with
      | false => cases hnone
      | true =>
        rcases List.mem_cons.mp hsha' with rfl | hsha'
        · have hmem : sha' ∈ s.blobs := of_decide_eq_true (Except.ok.inj hstored)
          rw [h.blobs] at hmem
          exact .inr hmem
        · exact ht.2 hnone sha' hsha'

theorem missingContent_arrives (h : Spared s₀ s) (manifest : GenerationManifest)
    (site : Option SiteManifest) :
    Arrives (missingContent manifest site) s fun missing s' => Spared s₀ s' ∧
      (missing = [] → site = none → ∀ file ∈ manifest.site, file.sha256 ∈ s₀.blobs) := by
  refine arrives_bind (missingBlobs_arrives h _ _) fun missing t ht => ?_
  have hfound : missing = [] → site = none → ∀ file ∈ manifest.site, file.sha256 ∈ s₀.blobs := by
    rintro hnone rfl file hfile
    refine (ht.2 hnone _ (List.mem_dedup.mpr (List.mem_map_of_mem hfile))).resolve_left ?_
    exact List.not_mem_nil
  split
  · exact arrives_pure ⟨ht.1, hfound⟩
  · refine arrives_call fun chance stored _ => arrives_pure ⟨ht.1.unfailing rfl chance, ?_⟩
    exact fun hnone => hfound (List.append_eq_nil_iff.mp hnone).1

/-- A generation that is driven to live with no site taken as present has all its content. -/
theorem activateStaged_arrives (h : Spared s₀ s) (site : Option SiteManifest) :
    Arrives (activateStaged staged site state .deferred) s fun _ s' => Spared s₀ s' ∧
      (site = none → ∀ file ∈ staged.manifest.site, file.sha256 ∈ s₀.blobs) := by
  refine arrives_bind (M := fun _ s' => Spared s₀ s' ∧
    (site = none → ∀ file ∈ staged.manifest.site, file.sha256 ∈ s₀.blobs)) ?_ fun _ t ht => ?_
  · refine arrives_call fun chance _ _ => arrives_call fun chance' _ _ => ?_
    refine arrives_bind (missingContent_arrives ((h.unfailing rfl chance).unfailing rfl chance') _ _)
      fun missing t ht => ?_
    split
    · exact arrives_pure ⟨ht.1, ht.2 ‹_›⟩
    · exact arrives_refuse _ _
  · refine (ht.1.only ?_).mono fun _ _ h' => ⟨h', ht.2⟩
    exact only_bind (only_call rfl) fun _ => only_bind buildRuntime_spares fun _ =>
      only_bind publish_spares fun _ => only_bind commit_spares fun _ =>
        only_bind (only_pure _) fun _ => only_call rfl

/-- The site that an intent publishes from the workspace. -/
def intendedSite (ws : Workspace) : ActivationIntent → SiteManifest
  | .siteOnly | .blockSet none _ => ws.siteManifest
  | .blockSet (some site) _ => site
  | .rollback target | .seed target => target.site

theorem compose_arrives (h : Spared s₀ s) (intent : ActivationIntent)
    (previous : Option LoadedGeneration) :
    Arrives (compose intent previous) s fun manifest s' =>
      Spared s₀ s' ∧ manifest.site = intendedSite s₀.workspace intent := by
  have hload : ∀ blocks, Arrives (do
      let site ← workspaceSite
      pure (⟨site, blocks⟩ : GenerationManifest)) s fun manifest s' =>
        Spared s₀ s' ∧ manifest.site = s₀.workspace.siteManifest := by
    intro blocks
    refine arrives_bind (M := fun site s' => Spared s₀ s' ∧ site = s₀.workspace.siteManifest) ?_
      fun site t ht => arrives_pure ht
    refine arrives_call fun chance ws hws => ?_
    cases hws
    refine arrives_pure ⟨h.unfailing (c := .loadWorkspace) rfl chance, ?_⟩
    exact congrArg siteManifest h.workspace
  cases intent with
  | siteOnly => exact hload _
  | blockSet site blocks =>
    cases site with
    | none => exact hload _
    | some site => exact arrives_pure ⟨h, rfl⟩
  | rollback target => exact arrives_pure ⟨h, rfl⟩
  | seed target => exact arrives_pure ⟨h, rfl⟩

theorem stageGeneration_arrives (h : Spared s₀ s) (cause : GenerationCause)
    (intent : ActivationIntent) (previous : Option LoadedGeneration)
    (hsite : SiteFits (intendedSite s₀.workspace intent)) :
    Arrives (stageGeneration cause intent previous) s fun staged s' =>
      Spared s₀ s' ∧ staged.2.site = intendedSite s₀.workspace intent := by
  refine arrives_bind (compose_arrives h intent previous) fun manifest t ht => ?_
  refine arrives_call fun chance id _ => ?_
  have h₁ := ht.1.unfailing (c := .newId) rfl chance
  refine arrives_call fun chance' row hrow => arrives_pure ⟨?_, ht.2⟩
  unfold unfailing answer at hrow ⊢
  dsimp only at hrow ⊢
  split at hrow
  · rename_i generations hinsert
    refine ⟨h₁.workspace, h₁.blobs, fun id' row' hrow' manifest' hmanifest' => ?_⟩
    rw [get?_insertRow hinsert] at hrow'
    split at hrow'
    · cases hrow'
      cases hmanifest'
      rw [ht.2]
      exact hsite
    · exact h₁.history id' row' hrow' manifest' hmanifest'
  · cases hrow

/-- The store with another workspace. -/
def DevStore.withWorkspace (s : DevStore) (ws : Workspace) : DevStore := { s with workspace := ws }

/-- The workspace an activation leaves: a rollback takes the site over. -/
def workspaceAfter (ws : Workspace) : ActivationIntent → Workspace
  | .rollback target => ws.adopt target.site
  | _ => ws

theorem saveWorkspace_arrives (h : Spared s₀ s) (ws : Workspace) :
    Arrives (call (.saveWorkspace ws)) s fun _ s' => Spared (s₀.withWorkspace ws) s' :=
  reaches_call (fun _ => trivial) fun _ _ _ => ⟨rfl, h.blobs, h.history⟩

theorem adoptSite_arrives (h : Spared s₀ s) (site : SiteManifest) :
    Arrives (adoptSite site) s fun _ s' =>
      Spared (s₀.withWorkspace (s₀.workspace.adopt site)) s' := by
  refine arrives_holding fun chance => arrives_call fun chance' ws hws => ?_
  have h' := (h.unfailing (c := .lock .workspaceManifest) rfl chance).unfailing
    (c := .loadWorkspace) rfl chance'
  have hworkspace : ws = s₀.workspace := by
    rw [← h.workspace]
    exact (Except.ok.inj hws).symm
  rw [hworkspace]
  exact (saveWorkspace_arrives h' _).mono fun _ _ h₁ chance => h₁.unfailing rfl chance

theorem adoptIfRollback_arrives (h : Spared s₀ s) (intent : ActivationIntent) (id : ℕ) :
    Arrives (adoptIfRollback intent id (intendedSite s₀.workspace intent)) s fun _ s' =>
      Spared (s₀.withWorkspace (workspaceAfter s₀.workspace intent)) s' := by
  cases intent with
  | rollback target =>
    refine reaches_attempt (B := fun _ _ => True) (adoptSite_arrives h _) (fun _ t ht => ?_)
      fun e t _ => arrives_throw
    exact arrives_pure ht
  | siteOnly | blockSet _ _ | seed _ => exact arrives_pure ⟨h.workspace, h.blobs, h.history⟩

theorem loadPrevious_spares (state : RuntimeState) :
    (loadPrevious state).run.Only fun c => c.spares = true := by
  unfold loadPrevious
  split
  · exact only_pure _
  · refine only_bind (only_call rfl) fun row => ?_
    split
    · exact only_pure _
    · exact only_throw _

/-- An activation leaves the workspace alone unless it is a rollback, whose content is all there. -/
theorem request_arrives (h : Spared s₀ s) (cause : GenerationCause) (intent : ActivationIntent)
    (hsite : SiteFits (intendedSite s₀.workspace intent)) :
    Arrives (request cause intent .deferred) s fun _ s' =>
      Spared (s₀.withWorkspace (workspaceAfter s₀.workspace intent)) s' ∧
        (cause = .rollback → ∀ file ∈ intendedSite s₀.workspace intent, file.sha256 ∈ s₀.blobs) := by
  refine arrives_holding fun chance => arrives_call fun chance' state _ => ?_
  have h' := (h.unfailing (c := .lock .activation) rfl chance).unfailing
    (c := .readState) rfl chance'
  refine arrives_bind (h'.only (loadPrevious_spares state)) fun previous t ht => ?_
  refine arrives_bind (M := fun staged t => Spared s₀ t ∧
    staged.2.site = intendedSite s₀.workspace intent) (arrives_holding fun chance => ?_)
    fun staged t₁ ht₁ => ?_
  · refine (stageGeneration_arrives (ht.unfailing (c := .lock .workspaceManifest) rfl chance) cause
      intent previous hsite).mono fun staged t₁ ht₁ chance => ?_
    exact ⟨ht₁.1.unfailing rfl chance, ht₁.2⟩
  obtain ⟨row, manifest⟩ := staged
  refine arrives_bind (activateStaged_arrives ht₁.1 _) fun activated t₂ ht₂ => ?_
  have hmanifest : manifest.site = intendedSite s₀.workspace intent := ht₁.2
  refine arrives_bind (M := fun _ s' => Spared (s₀.withWorkspace
    (workspaceAfter s₀.workspace intent)) s') ?_ fun _ t₃ ht₃ => ?_
  · rw [hmanifest]
    exact adoptIfRollback_arrives ht₂.1 intent _
  · refine arrives_pure fun chance => ⟨ht₃.unfailing rfl chance, ?_⟩
    rintro rfl
    rw [← hmanifest]
    exact ht₂.2 rfl

end Activations

/-! ## Requests -/

section Requests

variable {s : DevStore}

theorem Kept.withWorkspace (h : Kept s) {ws : Workspace} {s' : DevStore}
    (hspared : Spared (s.withWorkspace ws) s') (hfits : ws.Fits)
    (hbytes : ws.blobBytes = s.workspace.blobBytes) (hstored : Stored ws s.blobs) : Kept s' where
  fits := by
    rw [hspared.workspace]
    exact hfits
  bytes := by
    rw [hspared.workspace, hspared.blobs]
    exact hbytes.trans h.bytes
  quota := by
    rw [hspared.workspace]
    exact hbytes.le.trans h.quota
  stored := by
    rw [hspared.workspace, hspared.blobs]
    exact hstored
  history := hspared.history

/-- Publishing the workspace keeps what holds. -/
theorem Kept.publishes (h : Kept s) (area : WorkspaceArea) (cause : GenerationCause) :
    Arrives (publishIfSite area cause) s fun _ => Kept := by
  cases area with
  | block name => exact arrives_pure h
  | site =>
    refine arrives_bind (request_arrives h.refl cause .siteOnly h.fits.siteFits) fun _ t ht => ?_
    exact arrives_pure (h.spared ⟨ht.1.workspace, ht.1.blobs, ht.1.history⟩)

theorem Kept.publishesStored (h : Kept s) (area : WorkspaceArea) (cause : GenerationCause)
    (stored : Except Refusal Unit) : Arrives (publishStored area cause stored) s fun _ => Kept := by
  cases stored with
  | error refusal => exact arrives_pure h
  | ok _ => exact arrives_bind (h.publishes area cause) fun _ _ h' => arrives_pure h'

/-- A rollback keeps what holds where it finds room. -/
theorem Kept.rollsBack (h : Kept s) (id : ℕ) (hroom : (FilesRequest.rollback id).FindsRoom s) :
    Arrives (handleRollback id) s fun _ => Kept := by
  refine arrives_call fun chance row hrow => ?_
  have hstored : s.generations.get? id = some row := by
    unfold unfailing answer at hrow
    dsimp only at hrow
    split at hrow
    · rename_i row' hget
      cases hrow
      exact hget
    · cases hrow
  have h₁ := h.refl.unfailing (c := .getGeneration id) rfl chance
  split
  · exact arrives_throw
  · rename_i target htarget
    have hsite : SiteFits target.site := h.history id row hstored target htarget
    refine arrives_holding fun chance' => ?_
    have h₂ := h₁.unfailing (c := .lock .compile) rfl chance'
    refine arrives_bind (request_arrives h₂ .rollback (.rollback target) hsite) fun _ t ht => ?_
    refine arrives_pure fun chance => ?_
    have hspared := ht.1.unfailing (c := .unlock .compile) rfl chance
    have hcontent := ht.2 rfl
    refine h.withWorkspace hspared (h.fits.adopt hsite (hroom row hstored target htarget)) blobBytes_adopt ?_
    · intro path entry hentry
      rcases lookup_adopt hentry with hold | ⟨file, hfile, -, rfl⟩
      · exact h.stored path entry hold
      · exact hcontent file hfile

/-- The store with other blobs. -/
def DevStore.withBlobs (s : DevStore) (blobs : AList fun _ : Sha => ℕ) : DevStore :=
  { s with blobs }

variable {s₀ : DevStore}

/-- A blob is stored unless it is there. -/
theorem putHashed_arrives (h : Spared s₀ s) (sha : Sha) (size : ℕ) :
    Arrives (putHashed sha size) s fun grew s' =>
      (grew = false ∧ sha ∈ s₀.blobs ∧ Spared s₀ s') ∨
        grew = true ∧ sha ∉ s₀.blobs ∧ Spared (s₀.withBlobs (s₀.blobs.insert sha size)) s' := by
  refine arrives_call fun chance stored hstored => ?_
  have h' := h.unfailing (c := .blobExists sha) rfl chance
  have hmem : decide (sha ∈ s₀.blobs) = stored := by
    rw [← h.blobs]
    exact Except.ok.inj hstored
  split
  · rename_i hstored'
    exact arrives_pure (.inl ⟨rfl, of_decide_eq_true (hmem.trans hstored'), h'⟩)
  · rename_i hstored'
    refine arrives_call fun chance' _ _ => arrives_pure (.inr ⟨rfl, ?_, ?_⟩)
    · exact of_decide_eq_false (hmem.trans (eq_false_of_ne_true hstored'))
    · exact ⟨h'.workspace, congrArg (fun blobs => blobs.insert sha size) h'.blobs, h'.history⟩

/-- The workspace is charged for what the store grows by, which is no more than was foreseen. -/
theorem storeBlobs_arrives (h : Spared s₀ s) (ws planned : Workspace) (files : List FileWrite)
    (hstored : Stored planned s₀.blobs) (hfits : ws.blobBytes + newBytes planned files ≤ u64Max) :
    Arrives (storeBlobs ws files) s fun charged s' => ∃ blobs,
      Spared (s₀.withBlobs blobs) s' ∧ charged.files = ws.files ∧
      Stored (planned.insertAll files) blobs ∧
      totalBytes blobs + ws.blobBytes = totalBytes s₀.blobs + charged.blobBytes ∧
      charged.blobBytes ≤ ws.blobBytes + newBytes planned files := by
  induction files generalizing s₀ s ws planned with
  | nil => exact arrives_pure ⟨s₀.blobs, h, rfl, hstored, rfl, Nat.le_refl _⟩
  | cons file files ih =>
    refine reaches_attempt (B := fun _ _ => True) (putHashed_arrives h file.sha256 file.size)
      (fun grew t ht => ?_) fun e t _ => ?_
    · rw [newBytes] at hfits
      rcases ht with ⟨rfl, hmem, ht⟩ | ⟨rfl, hmem, ht⟩
      · refine (ih ht ws _ (hstored.insert file.path file.size hmem) (by omega)).mono ?_
        rintro charged s' ⟨blobs, hspared, hfiles, hall, htotal, hcharged⟩
        refine ⟨blobs, hspared, hfiles, hall, htotal, ?_⟩
        rw [newBytes]
        omega
      · rw [hstored.newBlobBytes hmem] at hfits
        have hcharge : (ws.recordBlobStored file.size).blobBytes = ws.blobBytes + file.size :=
          saturatingAdd_of_le (by omega)
        refine (ih ht (ws.recordBlobStored file.size) _ ((hstored.grow file.sha256
          file.size).insert file.path file.size ((AList.mem_insert _).mpr (.inl rfl)))
          (by omega)).mono ?_
        rintro charged s' ⟨blobs, hspared, hfiles, hall, htotal, hcharged⟩
        refine ⟨blobs, hspared, hfiles, hall, ?_, ?_⟩
        · simp only [DevStore.withBlobs, totalBytes_insert hmem] at htotal
          omega
        · rw [newBytes, hstored.newBlobBytes hmem]
          omega
    · exact reaches_attempt (M := fun _ _ => True) (B := fun _ _ => True)
        (reaches_call (fun _ => trivial) fun _ _ _ => trivial) (fun _ _ _ => arrives_throw)
        fun _ _ _ => arrives_throw

/-- Once none of the files is refused, their blobs and then their entries are stored. -/
theorem Kept.storesAll {α : Type} (h : Kept s₀) (hspared : Spared s₀ s) {area : WorkspaceArea}
    {files : List FileWrite} (hpaths : ∀ file ∈ files, Accepted file.path area)
    (hrefuse : refuseFiles area s₀.workspace files = none) (a : α) :
    Arrives (do
      let charged ← storeBlobs s₀.workspace files
      call (.saveWorkspace (charged.insertAll files))
      pure a) s fun _ => Kept := by
  obtain ⟨hfits, hquota⟩ := h.fits.insertAll hpaths h.quota hrefuse
  refine arrives_bind (storeBlobs_arrives hspared s₀.workspace s₀.workspace files h.stored
    (hquota.trans (by decide))) fun charged t ht => ?_
  obtain ⟨blobs, ht, hfiles, hall, htotal, hcharged⟩ := ht
  refine arrives_bind (saveWorkspace_arrives ht _) fun _ t' ht' => arrives_pure ?_
  have hbytes := h.bytes
  refine ⟨⟨?_, ?_, ?_⟩, ?_, ht'.history⟩
  · rw [ht'.workspace]
    exact hfits.of_files (insertAll_files hfiles files)
  · rw [ht'.workspace, ht'.blobs]
    show (charged.insertAll files).blobBytes = totalBytes blobs
    rw [blobBytes_insertAll]
    omega
  · rw [ht'.workspace]
    show (charged.insertAll files).blobBytes ≤ maxWorkspaceBytes
    rw [blobBytes_insertAll]
    omega
  · rw [ht'.workspace, ht'.blobs]
    intro path entry hentry
    refine hall path entry ?_
    rwa [← insertAll_files hfiles files]

theorem Kept.storesFile (h : Kept s₀) (hspared : Spared s₀ s) {area : WorkspaceArea}
    {file : FileWrite} (hpath : Accepted file.path area) :
    Arrives (storeFile area file) s fun _ => Kept := by
  refine arrives_call fun chance ws hws => ?_
  have h₁ := hspared.unfailing (c := .loadWorkspace) rfl chance
  obtain rfl : s₀.workspace = ws := by
    rw [← hspared.workspace]
    exact Except.ok.inj hws
  split
  · exact arrives_pure (h.spared h₁)
  cases hrefuse : refuseFile s₀.workspace area file with
  | some refusal => exact arrives_pure (h.spared h₁)
  | none =>
    obtain ⟨hfits, hquota⟩ := h.fits.insert hpath hrefuse
    have hbytes := h.bytes
    refine arrives_bind (putHashed_arrives h₁ file.sha256 file.size) fun grew t ht => ?_
    refine arrives_bind (M := fun _ => Kept) ?_ fun _ _ hkept => arrives_pure hkept
    rcases ht with ⟨rfl, hmem, ht⟩ | ⟨rfl, hmem, ht⟩
    · refine (saveWorkspace_arrives ht _).mono fun _ t' ht' => ?_
      exact h.withWorkspace ht' hfits rfl (h.stored.insert file.path file.size hmem)
    · refine (saveWorkspace_arrives ht _).mono fun _ t' ht' => ?_
      rw [h.stored.newBlobBytes hmem] at hquota
      have hcharge : (s₀.workspace.recordBlobStored file.size).blobBytes =
          s₀.workspace.blobBytes + file.size := saturatingAdd_of_le (hquota.trans (by decide))
      refine ⟨⟨?_, ?_, ?_⟩, ?_, ht'.history⟩
      · rw [ht'.workspace]
        exact hfits.of_files rfl
      · rw [ht'.workspace, ht'.blobs]
        have htotal : totalBytes (s₀.blobs.insert file.sha256 file.size) =
            s₀.workspace.blobBytes + file.size := by rw [totalBytes_insert hmem, hbytes]
        exact hcharge.trans htotal.symm
      · rw [ht'.workspace]
        exact hcharge.trans_le hquota
      · rw [ht'.workspace, ht'.blobs]
        exact (h.stored.grow file.sha256 file.size).insert file.path file.size
          ((AList.mem_insert _).mpr (.inl rfl))

theorem Kept.storesFiles (h : Kept s₀) (hspared : Spared s₀ s) {area : WorkspaceArea}
    {files : List FileWrite} (hpaths : ∀ file ∈ files, Accepted file.path area) :
    Arrives (storeFiles area files) s fun _ => Kept := by
  refine arrives_call fun chance ws hws => ?_
  have h₁ := hspared.unfailing (c := .loadWorkspace) rfl chance
  obtain rfl : s₀.workspace = ws := by
    rw [← hspared.workspace]
    exact Except.ok.inj hws
  dsimp only
  split
  · exact arrives_pure (h.spared h₁)
  cases hrefuse : refuseFiles area s₀.workspace files with
  | some refusal => exact arrives_pure (h.spared h₁)
  | none => exact h.storesAll h₁ hpaths hrefuse _

theorem Kept.dropsFile (h : Kept s₀) (hspared : Spared s₀ s) (path : Path) (expected : Sha) :
    Arrives (dropFile path expected) s fun _ => Kept := by
  refine arrives_call fun chance ws hws => ?_
  have h₁ := hspared.unfailing (c := .loadWorkspace) rfl chance
  obtain rfl : s₀.workspace = ws := by
    rw [← hspared.workspace]
    exact Except.ok.inj hws
  split
  · exact arrives_pure (h.spared h₁)
  · refine arrives_bind (saveWorkspace_arrives h₁ _) fun _ t ht => arrives_pure ?_
    refine h.withWorkspace ht (h.fits.remove path) rfl fun other entry hentry => ?_
    rw [Workspace.lookup_remove] at hentry
    split at hentry
    · cases hentry
    · exact h.stored other entry hentry

/-- A change of the workspace under its lock, and its publication. -/
theorem Kept.changes (h : Kept s) {change : Task (Except Refusal Unit)}
    (hchange : ∀ t, Spared s t → Arrives change t fun _ => Kept) (area : WorkspaceArea)
    (cause : GenerationCause) :
    Arrives (do
      let stored ← holding .workspaceManifest change
      publishStored area cause stored) s fun _ => Kept := by
  refine arrives_bind (M := fun _ => Kept) (arrives_holding fun chance => ?_) fun stored t ht =>
    ht.publishesStored area cause stored
  refine (hchange _ (h.refl.unfailing (c := .lock _) rfl chance)).mono fun _ t ht chance => ?_
  exact ht.spared (ht.refl.unfailing (c := .unlock _) rfl chance)

theorem arrives_answerRefusal {p : Task (Except Refusal Unit)}
    (hp : Arrives p s fun _ => Kept) : Arrives (answerRefusal <$> p) s fun _ => Kept := by
  rw [map_eq_pure_bind]
  exact arrives_bind hp fun _ _ ht => arrives_pure ht

theorem Kept.refusesMissing (h : Kept s) (paths : List String) :
    Arrives (refuseMissingExpectedHash paths) s fun _ => Kept :=
  arrives_call fun chance _ _ => arrives_pure (h.spared (h.refl.unfailing rfl chance))

theorem Kept.writes (h : Kept s) (rules : BypassRules) (request : FileWriteRequest) :
    Arrives (serveWrite rules request) s fun _ => Kept := by
  unfold serveWrite
  split
  · exact arrives_pure h
  rename_i area hvalid
  split
  · exact h.refusesMissing _
  split
  · exact arrives_pure h
  split
  · exact arrives_pure h
  · exact arrives_answerRefusal (h.changes (fun t ht => h.storesFile ht (.ofText hvalid)) area _)

theorem Kept.writesBatch (h : Kept s) (rules : BypassRules) (files : List FileWriteRequest) :
    Arrives (serveWriteBatch rules files) s fun _ => Kept := by
  unfold serveWriteBatch
  split
  · exact arrives_pure h
  split
  · exact arrives_pure h
  rename_i batch hbatch
  split
  · exact h.refusesMissing _
  split
  · exact arrives_pure h
  rename_i area harea
  split
  · exact arrives_pure h
  refine arrives_answerRefusal (h.changes (fun t ht => h.storesFiles ht fun file hfile => ?_) area _)
  obtain ⟨area', harea', haccepted⟩ := decodeBatch_ok
    (fun file hfile => absurd hfile List.not_mem_nil) hbatch file hfile
  rw [harea] at harea'
  cases harea'
  exact haccepted

theorem Kept.deletes (h : Kept s) (path : String) (expected : Sha) :
    Arrives (serveDelete path expected) s fun _ => Kept := by
  unfold serveDelete
  split
  · exact arrives_pure h
  · exact arrives_answerRefusal (h.changes (fun t ht => h.dropsFile ht _ expected) _ _)

theorem Kept.storesTemplate (h : Kept s₀) (hspared : Spared s₀ s) {name : String}
    {files : List FileWrite} (hpaths : ∀ file ∈ files, Accepted file.path (.block name)) :
    Arrives (storeTemplate name files) s fun _ => Kept := by
  refine arrives_call fun chance ws hws => ?_
  have h₁ := hspared.unfailing (c := .loadWorkspace) rfl chance
  obtain rfl : s₀.workspace = ws := by
    rw [← hspared.workspace]
    exact Except.ok.inj hws
  split
  · exact arrives_pure (h.spared h₁)
  cases hrefuse : refuseFiles (.block name) s₀.workspace files with
  | some refusal => exact arrives_pure (h.spared h₁)
  | none => exact h.storesAll h₁ hpaths hrefuse _

theorem Kept.creates (h : Kept s) (name : String) (template : TemplateFiles) :
    Arrives (handleCreate name template) s fun _ => Kept := by
  unfold handleCreate
  split
  · rename_i hname
    refine arrives_holding fun chance => ?_
    refine (h.storesTemplate (h.refl.unfailing (c := .lock .workspaceManifest) rfl chance)
      fun file hfile => ?_).mono fun _ t ht chance => ht.spared (ht.refl.unfailing rfl chance)
    simp only [List.mem_cons, List.not_mem_nil, or_false] at hfile
    rcases hfile with rfl | rfl
    · exact accepted_template hname _ (.inl rfl)
    · exact accepted_template hname _ (.inr rfl)
  · exact arrives_pure h

end Requests

/-! ## Collections -/

section Collections

variable {s s₀ : DevStore} {α β : Type}

/-- However the program ends, where no call fails, `J` holds then. -/
def Keeps (p : Task α) (s : DevStore) (J : DevStore → Prop) : Prop :=
  Passes unfailing (fun _ _ _ => True) p s (fun _ => J) fun _ => J

theorem Spared.keeps {p : Task α} (hp : p.run.Only fun c => c.spares = true) (h : Spared s₀ s) :
    Keeps p s (Spared s₀) :=
  (passes_only hp (fun chance _ _ hc => Spared.unfailing hc chance) h).mono (fun _ _ _ _ => trivial)
    (fun _ _ h => h) fun _ _ h => h

theorem retained_spares : retained.run.Only fun c => c.spares = true := by
  refine only_bind (only_call rfl) fun rows => ?_
  split
  · exact only_pure _
  · exact only_bind (only_call rfl) fun _ => only_bind (only_call rfl) fun _ => only_pure _

theorem prune_spares (turns : ℕ) : (prune turns).run.Only fun c => c.spares = true := by
  have hbelow : ∀ (boundary : GenerationRow) (turns : ℕ) (pruned : List GenerationRow),
      (pruneBelow boundary turns pruned).run.Only fun c => c.spares = true := by
    intro boundary turns
    induction turns with
    | zero => exact fun _ => only_pure _
    | succ turns ih =>
      intro pruned
      refine only_bind (only_call rfl) fun page => ?_
      split
      · exact only_pure _
      · exact only_bind (only_call rfl) fun _ => ih _
  refine only_bind (only_call rfl) fun newest => ?_
  split
  · exact only_pure _
  · exact hbelow _ _ _

theorem collectArtifact_spares (live : List Sha) (sha : Sha) :
    (collectArtifact live sha).run.Only fun c => c.spares = true := by
  unfold collectArtifact
  split
  · exact only_pure _
  · refine only_bind (only_call rfl) fun inFlight => ?_
    split
    · exact only_pure _
    · exact only_bind (only_call rfl) fun _ => only_call rfl

/-- What is left of a sweep is live or was not listed, and is what was counted. -/
theorem sweep_arrives {blobs : AList fun _ : Sha => ℕ} (h : Spared (s₀.withBlobs blobs) s)
    (live : List Sha) (todo : List (Sha × ℕ)) (bytes count : ℕ) (hnodup : (todo.map (·.1)).Nodup)
    (hstored : ∀ object ∈ todo, blobs.lookup object.1 = some object.2)
    (htotal : totalBytes blobs = bytes + (todo.map (·.2)).sum) (hfits : totalBytes blobs ≤ u64Max) :
    Passes unfailing (fun _ _ _ => True) (sweep live todo none bytes count) s
      (fun swept s' => swept.1 = none ∧ ∃ left, Spared (s₀.withBlobs left) s' ∧
        totalBytes left = swept.2.1 ∧ totalBytes left ≤ totalBytes blobs ∧
        ∀ sha ∈ live, sha ∈ blobs → sha ∈ left)
      fun _ _ => False := by
  induction todo generalizing s blobs bytes count with
  | nil =>
    exact passes_pure ⟨rfl, blobs, h, htotal, Nat.le_refl _, fun _ _ hsha => hsha⟩
  | cons object todo ih =>
    obtain ⟨sha, size⟩ := object
    rw [List.map_cons, List.nodup_cons] at hnodup
    rw [List.map_cons, List.sum_cons] at htotal
    have hsha : blobs.lookup sha = some size := hstored ⟨sha, size⟩ List.mem_cons_self
    have hrest : ∀ object ∈ todo, blobs.lookup object.1 = some object.2 := fun object hobject =>
      hstored object (List.mem_cons_of_mem _ hobject)
    unfold sweep
    split
    · rename_i hdead
      refine passes_attempt (M := fun _ => Spared (s₀.withBlobs (blobs.erase sha)))
        (B := fun _ _ => False) (passes_call (fun _ => trivial) (fun chance reply s' hanswer => ?_)
          fun chance e s' hanswer => by cases hanswer) (fun _ t ht => ?_) fun _ _ h => h.elim
      · cases hanswer
        exact ⟨h.workspace, congrArg (fun blobs => blobs.erase sha) h.blobs, h.history⟩
      · have herase := totalBytes_erase hsha
        refine (ih ht bytes count hnodup.2 (fun object hobject => ?_) (by omega) (by omega)).mono
          (fun _ _ _ h => h) ?_ fun _ _ h => h
        · have hne : object.1 ≠ sha := fun heq =>
            hnodup.1 (List.mem_map.mpr ⟨object, hobject, heq⟩)
          rw [AList.lookup_erase_ne hne]
          exact hrest object hobject
        · rintro swept s' ⟨hnone, left, hleft, hcounted, hle, hlive⟩
          refine ⟨hnone, left, hleft, hcounted, by omega, fun sha' hsha' hmem => ?_⟩
          refine hlive sha' hsha' (AList.mem_erase.mpr ⟨?_, hmem⟩)
          rintro rfl
          rw [List.contains_iff_mem.mpr hsha'] at hdead
          cases hdead
    · rw [saturatingAdd_of_le (by omega : bytes + size ≤ u64Max)]
      exact ih h (bytes + size) _ hnodup.2 hrest (by omega) hfits

/-- A collection of the blobs sets the counter to what is left of them. -/
theorem Kept.collectsBlobs (h : Kept s₀) (hspared : Spared s₀ s) (live : List Sha) :
    Keeps (collectBlobs (s₀.blobs.entries.map fun entry => (entry.1, entry.2)) live) s Kept := by
  refine passes_bind (M := fun ws t => ws = s₀.workspace ∧ Spared s₀ t) (passes_call
    (fun _ => trivial) (fun chance reply s' hanswer => ?_) fun chance e s' hanswer => by
      cases hanswer) fun ws t ht => ?_
  · cases hanswer
    exact ⟨hspared.workspace, hspared.unfailing (c := .loadWorkspace) rfl chance⟩
  obtain ⟨rfl, ht⟩ := ht
  have hkeys : (s₀.blobs.entries.map fun entry => (entry.1, entry.2)).map (·.1) =
      s₀.blobs.keys := by
    rw [List.map_map]
    rfl
  have hsizes : (s₀.blobs.entries.map fun entry => (entry.1, entry.2)).map (·.2) =
      s₀.blobs.entries.map (·.2) := by
    rw [List.map_map]
    rfl
  have ht₀ : Spared (s₀.withBlobs s₀.blobs) t := ht
  have hmost : totalBytes s₀.blobs ≤ u64Max := by
    rw [← h.bytes]
    exact h.quota.trans (by decide)
  refine passes_bind ((sweep_arrives ht₀ _ _ 0 0
    (hkeys ▸ s₀.blobs.keys_nodup) (fun object hobject => ?_) ?_ hmost).mono (fun _ _ _ h => h)
    (fun _ _ h => h) fun _ _ h => h.elim) fun swept t' ht' => ?_
  · obtain ⟨entry, hentry, rfl⟩ := List.mem_map.mp hobject
    exact AList.mem_lookup_iff.mpr hentry
  · rw [hsizes, Nat.zero_add]
    rfl
  obtain ⟨failure, bytes, count⟩ := swept
  obtain ⟨rfl, left, hleft, hcounted, hle, hlive⟩ := ht'
  dsimp only at hcounted
  have hshas : Stored s₀.workspace left := fun path entry hentry =>
    hlive _ (List.mem_append_right _ (List.mem_map.mpr ⟨⟨path, entry⟩,
      AList.mem_lookup_iff.mp hentry, rfl⟩)) (h.stored path entry hentry)
  have hbytes := h.bytes
  have hquota := h.quota
  dsimp only [resetBlobTotals]
  by_cases hchanged : (s₀.workspace.blobBytes != bytes || s₀.workspace.blobCount != count) = true
  · rw [if_pos hchanged]
    refine passes_bind (M := fun _ => Kept) (passes_call (fun _ => trivial)
      (fun chance reply s' hanswer => ?_) fun chance e s' hanswer => by cases hanswer)
      fun _ t hkept => passes_pure hkept
    cases hanswer
    refine ⟨⟨h.fits.of_files rfl, ?_, ?_⟩, ?_, hleft.history⟩
    · exact hcounted.symm.trans (congrArg totalBytes hleft.blobs).symm
    · show bytes ≤ maxWorkspaceBytes
      omega
    · exact fun path entry hentry => (congrArg (entry.sha256 ∈ ·) hleft.blobs).mpr
        (hshas path entry hentry)
  · rw [if_neg hchanged]
    have hsame : s₀.workspace.blobBytes = bytes := by
      by_contra hne
      exact hchanged (by simp [hne])
    refine passes_pure ⟨⟨?_, ?_, ?_⟩, ?_, hleft.history⟩
    · rw [hleft.workspace]
      exact h.fits
    · rw [hleft.workspace, hleft.blobs]
      exact hsame.trans hcounted.symm
    · rw [hleft.workspace]
      exact hquota
    · rw [hleft.workspace, hleft.blobs]
      exact hshas

theorem Kept.only (h : Kept s) {p : Task α} (hp : p.run.Only fun c => c.spares = true) :
    Keeps p s Kept :=
  (h.refl.keeps hp).mono (fun _ _ _ h => h) (fun _ _ => h.spared) fun _ _ => h.spared

theorem keeps_bind {p : Task β} {f : β → Task α} {J : DevStore → Prop} (hp : Keeps p s J)
    (hf : ∀ b t, J t → Keeps (f b) t J) : Keeps (p >>= f) s J :=
  passes_bind (M := fun _ => J) hp hf

theorem keeps_attempt {p : Task β} {f : Except ActivationError β → Task α} {J : DevStore → Prop}
    (hp : Keeps p s J) (hf : ∀ b t, J t → Keeps (f b) t J) : Keeps (attempt p >>= f) s J :=
  passes_attempt (M := fun _ => J) (B := fun _ => J) hp (fun b => hf (.ok b)) fun e => hf (.error e)

theorem keeps_holding {lock : Lock} {p : Task α} (hp : ∀ t, Kept t → Keeps p t Kept)
    (h : Kept s) : Keeps (holding lock p) s Kept := by
  refine keeps_bind (h.only (only_call rfl)) fun _ t ht => keeps_attempt (hp t ht) fun result t ht =>
    keeps_bind (ht.only (only_call rfl)) fun _ t ht => ?_
  cases result with
  | ok a => exact passes_pure ht
  | error e => exact passes_throw ht

theorem Kept.collectsUnderLock (h : Kept s) : Keeps collectUnderLock s Kept := by
  have herror : ∀ t, Spared s t → Kept t := fun t => h.spared
  refine passes_bind (M := fun objects t => objects =
    (s.blobs.entries.map fun entry => (entry.1, entry.2)) ∧ Spared s t) (passes_call
      (fun _ => trivial) (fun chance reply s' hanswer => ?_) fun chance e s' hanswer => by
        cases hanswer) fun objects t ht => ?_
  · cases hanswer
    exact ⟨rfl, h.refl.unfailing (c := .listBlobs) rfl chance⟩
  obtain ⟨rfl, ht⟩ := ht
  refine passes_bind ((ht.keeps retained_spares).mono (fun _ _ _ h => h) (fun _ _ h => h)
    fun _ => herror) fun rows t₁ h₁ => ?_
  refine passes_bind (M := fun _ => Spared s) ?_ fun live t₂ h₂ => ?_
  · cases hlive : liveContent rows with
    | ok live => exact h₁
    | error e => exact herror t₁ h₁
  refine passes_bind ((h₂.keeps (only_call rfl)).mono (fun _ _ _ h => h) (fun _ _ h => h)
    fun _ => herror) fun builds t₃ h₃ => ?_
  exact keeps_bind (h.collectsBlobs h₃ _) fun _ _ hkept => passes_pure hkept

theorem Kept.collectsAll (h : Kept s) : Keeps collect s Kept := by
  refine keeps_bind (h.only (only_call rfl)) fun settled t ht => ?_
  refine keeps_bind (ht.only (only_call rfl)) fun objects t ht => ?_
  refine keeps_bind (keeps_holding (fun _ => Kept.collectsUnderLock) ht) fun live t ht => ?_
  exact ht.only (only_bind (only_forM fun sha _ => collectArtifact_spares _ _) fun _ =>
    only_forM fun row _ => only_call rfl)

/-- A maintenance pass keeps what holds. -/
theorem Kept.collects (h : Kept s) (turns : ℕ) : Keeps (maintain turns) s Kept := by
  refine keeps_holding (fun t ht => ?_) h
  refine keeps_attempt (ht.only (prune_spares turns)) fun pruned t ht => ?_
  cases pruned with
  | error e => exact passes_pure ht
  | ok _ => exact keeps_attempt ht.collectsAll fun _ _ ht => passes_pure ht

end Collections

end Dev
