import Impresspress.Dev.Maintenance
import Impresspress.Dev.Publisher

/-!
# Activation

The one path from a desired state to a live generation: compose a manifest, stage a row for it,
validate it, rebuild the runtime if the blocks changed, publish the site, and commit. What fails on
the way is abandoned, and a publish that fails is undone first.

## Main definitions

* `Dev.ActivationIntent`: what a caller wants to be true.
* `Dev.activateStaged`: driving a staged generation to live.
* `Dev.activate`: staging one and driving it.
-/

namespace Dev

open Concurrent Concurrent.Fallible

inductive ActivationIntent
  | siteOnly
  | blockSet (site : Option SiteManifest) (blocks : List DynamicBlockSpec)
  | rollback (target : GenerationManifest)
  | seed (manifest : GenerationManifest)
  deriving DecidableEq

/-- A generation row with what it publishes. -/
abbrev LoadedGeneration := GenerationRow × GenerationManifest

/-- The workspace's `site/` half, read from storage. -/
def workspaceSite : Task SiteManifest := do
  let ws ← call .loadWorkspace
  pure ws.siteManifest

/-- Resolve the intent into the manifest to stage, against the state that is current now. -/
def compose (intent : ActivationIntent) (previous : Option LoadedGeneration) :
    Task GenerationManifest :=
  let activeBlocks := (previous.map (·.2.blocks)).getD []
  match intent with
  | .siteOnly => do
    let site ← workspaceSite
    pure ⟨site, activeBlocks⟩
  | .blockSet (some site) blocks => pure ⟨site, blocks⟩
  | .blockSet none blocks => do
    let site ← workspaceSite
    pure ⟨site, blocks⟩
  | .rollback target => pure target
  | .seed manifest => pure manifest

/-- The generation the journal says is live, with its manifest. -/
def loadPrevious (state : RuntimeState) : Task (Option LoadedGeneration) :=
  match state.activeGenerationId with
  | none => pure none
  | some id => do
    let row ← call (.getGeneration id)
    match row.manifest with
    | some manifest => pure (some (row, manifest))
    | none => throw (.storage .internal)

/-- Journal an in-flight phase, leaving the active generation untouched. -/
def journal (state : RuntimeState) (desired : ℕ) (phase : ActivationPhase) : Task Unit :=
  call (.writeState { state with desiredGenerationId := some desired, activationPhase := phase })

/-- Mark a generation failed and put the journal back at rest. -/
def abandon (id : ℕ) (state : RuntimeState) : Task Unit := do
  call (.setStatus id .failed)
  call (.writeState { state with desiredGenerationId := none, activationPhase := .idle })

/-- Abandon the generation and report why. -/
def refuse {α : Type} (id : ℕ) (state : RuntimeState) (error : ActivationError) : Task α := do
  abandon id state
  throw error

/-- The blobs among `shas` that are not stored; the present ones are not probed. -/
def missingBlobs (present : List Sha) : List Sha → Task (List Missing)
  | [] => pure []
  | sha :: shas =>
    if present.contains sha then missingBlobs present shas
    else do
      let stored ← call (.blobExists sha)
      let missing ← missingBlobs present shas
      pure (if stored then missing else .blob sha :: missing)

/-- The blocks whose artifact no build row names. -/
def missingArtifacts (blocks : List DynamicBlockSpec) (stored : List Sha) : List Missing :=
  blocks.filterMap fun spec =>
    if stored.contains spec.artifactSha256 then none
    else some (.artifact spec.name spec.artifactSha256)

/-- Content the manifest names that the stores do not hold. -/
def missingContent (manifest : GenerationManifest) (presentSite : Option SiteManifest) :
    Task (List Missing) := do
  let present := (presentSite.getD []).map (·.sha256)
  let missing ← missingBlobs present (siteBlobShas manifest)
  if manifest.blocks.isEmpty then pure missing
  else
    let stored ← call .artifactIndex
    pure (missing ++ missingArtifacts manifest.blocks stored)

/-- Put back the runtime that the rebuild swapped out. A failure goes into the report only. -/
def restoreRuntime (rebuilt : Bool) : Task Unit :=
  if rebuilt then do
    let _ ← attempt (call .restorePrevious)
    pure ()
  else pure ()

/-- Put the runtime and the site back the way they were after a failed publish. -/
def restore (attempted : GenerationManifest) (previous : Option LoadedGeneration)
    (rebuilt : Bool) : Task Unit := do
  restoreRuntime rebuilt
  let _ ← attempt (publishSite (some attempted.site) ((previous.map (·.2.site)).getD []))
  pure ()

/-- A generation row that has been staged, with what it would succeed. -/
structure Staged where
  row : GenerationRow
  manifest : GenerationManifest
  previous : Option LoadedGeneration

namespace Staged

variable (staged : Staged) (state : RuntimeState)

/-- The block set differs from the one that is live. -/
def rebuilds : Bool := blockSetChanged (staged.previous.map (·.2)) staged.manifest

/-- Refuse a manifest that names content which is not stored. -/
def validate (presentSite : Option SiteManifest) : Task Unit := do
  journal state staged.row.id .validating
  call (.setStatus staged.row.id .validating)
  let missing ← missingContent staged.manifest presentSite
  if missing = [] then pure ()
  else refuse staged.row.id state (.validation missing)

/-- Rebuild the runtime, if the block set changed. -/
def buildRuntime : Task Unit :=
  if staged.rebuilds then do
    journal state staged.row.id .buildingRuntime
    let rebuilt ← attempt (call (.rebuild staged.manifest.blocks))
    match rebuilt with
    | .ok _ => pure ()
    | .error e => refuse staged.row.id state e
  else pure ()

/-- Publish the site; a publish that fails is undone. -/
def publish : Task Unit := do
  journal state staged.row.id .publishing
  let published ← attempt
    (publishSite (staged.previous.map (·.2.site)) staged.manifest.site)
  match published with
  | .ok _ => pure ()
  | .error e => do
    restore staged.manifest staged.previous staged.rebuilds
    refuse staged.row.id state e

/-- The generation that was serving has stopped. -/
def supersede : Task Unit :=
  match staged.previous.filter fun previous => previous.1.id ≠ staged.row.id with
  | some previous => call (.setStatus previous.1.id .superseded)
  | none => pure ()

/-- Say on the rows and in the journal what is live now. -/
def commit : Task Unit := do
  call (.setStatus staged.row.id .active)
  staged.supersede
  call (.writeState ⟨some staged.row.id, none, .idle, saturatingSucc state.generation⟩)

end Staged

/-- Drive an already staged generation to live. -/
def activateStaged (staged : Staged) (presentSite : Option SiteManifest) (state : RuntimeState)
    (maintenance : Maintenance) : Task GenerationRow := do
  staged.validate state presentSite
  call (.setStatus staged.row.id .activating)
  staged.buildRuntime state
  staged.publish state
  staged.commit state
  scheduleMaintenance maintenance
  -- the answer is what the ledger holds
  call (.getGeneration staged.row.id)

/-- Replace the workspace's `site/` half with `site`. -/
def adoptSite (site : SiteManifest) : Task Unit := holding .workspaceManifest do
  let ws ← call .loadWorkspace
  call (.saveWorkspace (ws.adopt site))

/-- Compose the manifest and append its row. -/
def stageGeneration (cause : GenerationCause) (intent : ActivationIntent)
    (previous : Option LoadedGeneration) : Task LoadedGeneration := do
  let manifest ← compose intent previous
  let id ← call .newId
  let row ← call (.insertGeneration ⟨id, cause, manifest⟩)
  pure (row, manifest)

/-- The site whose blobs validation takes as present: an everyday edit trusts the active one. -/
def presentSite (cause : GenerationCause) (previous : Option LoadedGeneration) :
    Option SiteManifest :=
  match cause with
  | .siteWrite | .siteDelete | .blockCompile | .blockRemove => previous.map (·.2.site)
  | .rollback | .seed => none

/-- A rollback replaces the workspace's site as well, once it is live. -/
def adoptIfRollback (intent : ActivationIntent) (id : ℕ) (site : SiteManifest) : Task Unit :=
  match intent with
  | .rollback _ => do
    let adopted ← attempt (adoptSite site)
    match adopted with
    | .ok _ => pure ()
    | .error _ => throw (.rollbackNotAdopted id)
  | _ => pure ()

/-- Resolve the intent, stage it as a new generation, and activate it. -/
def activate (cause : GenerationCause) (intent : ActivationIntent) (maintenance : Maintenance) :
    Task GenerationRow := do
  let state ← call .readState
  let previous ← loadPrevious state
  -- held until the row exists, so that a collection finds what the row names
  let (row, manifest) ← holding .workspaceManifest (stageGeneration cause intent previous)
  let activated ← activateStaged ⟨row, manifest, previous⟩ (presentSite cause previous) state
    maintenance
  adoptIfRollback intent row.id manifest.site
  pure activated

/-- Ask for an activation: one runs at a time. -/
def request (cause : GenerationCause) (intent : ActivationIntent) (maintenance : Maintenance) :
    Task GenerationRow :=
  holding .activation (activate cause intent maintenance)

end Dev
