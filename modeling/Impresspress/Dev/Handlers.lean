import Impresspress.Dev.Activation

/-!
# The handlers of the workspace

What a request to the files, the blocks and the generations endpoints does: change the workspace
under its lock and publish it, stage a compiled block, take a block out, or publish an earlier
generation again.

## Main definitions

* `Dev.handleWrite`, `Dev.handleWriteBatch`, `Dev.handleDelete`: the files.
* `Dev.stage`, `Dev.handleRemove`: the blocks.
* `Dev.handleRollback`: the generations.
-/

namespace Dev

open Concurrent Concurrent.Fallible

/-! ## Files -/

inductive WorkspaceArea
  | site
  | block (name : String)
  deriving DecidableEq

/-- Why a change of the workspace is refused. -/
inductive Refusal
  | conflict (paths : List Path)
  | collision (path clash : Path)
  | tooManyFiles
  | workspaceFull (wouldBe : ℕ)
  | tooManyBlocks
  deriving DecidableEq

def maxFiles : ℕ := 2000

def maxWorkspaceBytes : ℕ := 64 * 1024 * 1024

def maxBlocks : ℕ := 16

def checkQuotas (ws : Workspace) (path : Path) (area : WorkspaceArea) (newBlobBytes : ℕ) :
    Option Refusal :=
  if (ws.get path).isNone && ws.files.keys.length ≥ maxFiles then some .tooManyFiles
  else if ws.blobBytes + newBlobBytes > maxWorkspaceBytes then
    some (.workspaceFull (ws.blobBytes + newBlobBytes))
  else
    match area with
    | .site => none
    | .block name =>
      if !ws.blockNames.contains name && ws.blockNames.length ≥ maxBlocks then some .tooManyBlocks
      else none

/-- The caller has seen the file as it is, or asserts that there is none. -/
def hashMatches (current : Option FileEntry) (expected : Option Sha) : Bool :=
  match current, expected with
  | none, none => true
  | some entry, some sha => entry.sha256 == sha
  | _, _ => false

/-- One file of a write: where it goes, its content, and the hash that the caller expects there. -/
structure FileWrite where
  path : Path
  sha256 : Sha
  size : ℕ
  expected : Option Sha

/-- What the blob store would grow by: content that an entry names is certainly stored. -/
def newBlobBytes (ws : Workspace) (file : FileWrite) : ℕ :=
  if ws.references file.sha256 then 0 else file.size

/-- A name is a file or a directory, and the quotas hold. -/
def refuseFile (ws : Workspace) (area : WorkspaceArea) (file : FileWrite) : Option Refusal :=
  match ws.pathCollision file.path with
  | some clash => some (.collision file.path clash)
  | none => checkQuotas ws file.path area (newBlobBytes ws file)

/-- Store a blob unless it is stored; also says whether the store grew. -/
def putHashed (sha : Sha) (size : ℕ) : Task Bool := do
  let stored ← call (.blobExists sha)
  if stored then pure false
  else do
    call (.putBlob sha size)
    pure true

/-- Store the blob, then save the entry that names it. -/
def storeFile (area : WorkspaceArea) (file : FileWrite) : Task (Except Refusal Unit) := do
  let ws ← call .loadWorkspace
  if !hashMatches (ws.get file.path) file.expected then pure (.error (.conflict [file.path]))
  else
    match refuseFile ws area file with
    | some refusal => pure (.error refusal)
    | none => do
      let grew ← putHashed file.sha256 file.size
      let charged := if grew then ws.recordBlobStored file.size else ws
      call (.saveWorkspace (charged.insert file.path file.sha256 file.size))
      pure (.ok ())

/-- Publish the workspace, if what changed is what the site serves. -/
def publishIfSite (area : WorkspaceArea) (cause : GenerationCause) : Task Unit :=
  match area with
  | .site => do
    let _ ← request cause .siteOnly .deferred
  | .block _ => pure ()

/-- Publish what a change stored, if it was not refused. -/
def publishStored (area : WorkspaceArea) (cause : GenerationCause) (stored : Except Refusal Unit) :
    Task (Except Refusal Unit) :=
  match stored with
  | .error refusal => pure (.error refusal)
  | .ok () => do
    publishIfSite area cause
    pure (.ok ())

/-- `POST /b/dev/api/files/write`. -/
def handleWrite (area : WorkspaceArea) (file : FileWrite) : Task (Except Refusal Unit) := do
  let stored ← holding .workspaceManifest (storeFile area file)
  publishStored area .siteWrite stored

/-- Every file is checked on top of those ahead of it, before any is stored. -/
def refuseFiles (area : WorkspaceArea) : Workspace → List FileWrite → Option Refusal
  | _, [] => none
  | projected, file :: files =>
    match refuseFile projected area file with
    | some refusal => some refusal
    | none =>
      let bytes := newBlobBytes projected file
      let inserted := projected.insert file.path file.sha256 file.size
      refuseFiles area (if 0 < bytes then inserted.recordBlobStored bytes else inserted) files

/-- Store the blobs of a batch, and charge `ws` for what the store grew by. A store that fails
saves the charges, and no entry. -/
def storeBlobs (ws : Workspace) : List FileWrite → Task Workspace
  | [] => pure ws
  | file :: files => do
    let grew ← attempt (putHashed file.sha256 file.size)
    match grew with
    | .ok grew => storeBlobs (if grew then ws.recordBlobStored file.size else ws) files
    | .error e => do
      let _ ← attempt (call (.saveWorkspace ws))
      throw e

/-- Store several files as one change. -/
def storeFiles (area : WorkspaceArea) (files : List FileWrite) : Task (Except Refusal Unit) := do
  let ws ← call .loadWorkspace
  let conflicts := files.filter fun file => !hashMatches (ws.get file.path) file.expected
  if !conflicts.isEmpty then pure (.error (.conflict (conflicts.map (·.path))))
  else
    match refuseFiles area ws files with
    | some refusal => pure (.error refusal)
    | none => do
      let charged ← storeBlobs ws files
      call (.saveWorkspace
        (files.foldl (fun ws file => ws.insert file.path file.sha256 file.size) charged))
      pure (.ok ())

/-- `POST /b/dev/api/files/write-batch`. -/
def handleWriteBatch (area : WorkspaceArea) (files : List FileWrite) :
    Task (Except Refusal Unit) := do
  let stored ← holding .workspaceManifest (storeFiles area files)
  publishStored area .siteWrite stored

/-- Drop the entry; the blob stays. -/
def dropFile (path : Path) (expected : Sha) : Task (Except Refusal Unit) := do
  let ws ← call .loadWorkspace
  if !hashMatches (ws.get path) (some expected) then pure (.error (.conflict [path]))
  else do
    call (.saveWorkspace (ws.remove path))
    pure (.ok ())

/-- `POST /b/dev/api/files/delete`. -/
def handleDelete (area : WorkspaceArea) (path : Path) (expected : Sha) :
    Task (Except Refusal Unit) := do
  let stored ← holding .workspaceManifest (dropFile path expected)
  publishStored area .siteDelete stored

/-! ## Blocks -/

/-- The generation the journal says is live, with its manifest. -/
def activeGeneration : Task (Option LoadedGeneration) := do
  let state ← call .readState
  loadPrevious state

/-- A compiled block, and what the rules make of it beside the blocks that it joins. -/
structure StageBuildRequest where
  blockName : String
  artifactSha256 : Sha
  artifactBytes : ℕ
  validateStatic : List DynamicBlockSpec → Option DynamicBlockSpec

/-- Every block of the set has an accepted build that records what it claims. -/
def claimedToolNames : List DynamicBlockSpec → Task Bool
  | [] => pure true
  | block :: blocks => do
    let row ← call (.latestValidForArtifact block.artifactSha256)
    if row.isNone then pure false else claimedToolNames blocks

/-- Mark a build refused. -/
def invalidate (buildId : ℕ) : Task Bool := do
  call (.setBuildStatus buildId .invalid)
  pure false

/-- Inspect the guest and check it against the rules; the block set it joins, if it is accepted. -/
def validateGuest (request : StageBuildRequest) (others : List DynamicBlockSpec) :
    Task (Option (List DynamicBlockSpec)) := do
  let inspected ← call (.inspect request.artifactSha256)
  if !inspected then pure none
  else do
    let complete ← claimedToolNames others
    if !complete then pure none
    else
      match request.validateStatic others with
      | none => pure none
      | some accepted => do
        let spec := { accepted with artifactSha256 := request.artifactSha256 }
        let probed ← call (.probe spec)
        pure (if probed then some (others ++ [spec]) else none)

/-- The half of a stage under the compile lock, from the live block set to the activation. -/
def compileStaged (request : StageBuildRequest) (buildId : ℕ) : Task Bool := do
  let active ← activeGeneration
  let live := (active.map (·.2.blocks)).getD []
  let validated ← validateGuest request (live.filter fun block => block.name ≠ request.blockName)
  match validated with
  | none => invalidate buildId
  | some blocks => do
    -- the row stays in flight until its activation has minted a manifest
    call (.setBuildStatus buildId .staged)
    let activated ← attempt (Dev.request .blockCompile (.blockSet none blocks) .deferred)
    call (.setBuildStatus buildId .valid)
    match activated with
    | .ok _ => pure true
    | .error e => throw e

/-- `POST /b/dev/api/blocks/stage`: the row goes in before the bytes. Answers whether the block is
live. -/
def stage (request : StageBuildRequest) : Task Bool := do
  let build ← call (.insertBuild ⟨request.blockName, request.artifactSha256, request.artifactBytes⟩)
  let stored ← attempt (call (.putArtifact request.artifactSha256 request.artifactBytes))
  match stored with
  | .error e => do
    let _ ← attempt (call (.deleteBuild build.id))
    throw e
  | .ok _ => holding .compile (compileStaged request build.id)

/-- The half of a removal under the compile lock. -/
def removeLive (blockName : String) : Task Unit := do
  let active ← activeGeneration
  let live := (active.map (·.2.blocks)).getD []
  if !live.any (fun block => block.name == blockName) then throw (.storage .notFound)
  else do
    let _ ← request .blockRemove
      (.blockSet none (live.filter fun block => block.name ≠ blockName)) .deferred

/-- `POST /b/dev/api/blocks/{name}/remove`. -/
def handleRemove (blockName : String) : Task Unit := holding .compile (removeLive blockName)

/-! ## Generations -/

/-- `POST /b/dev/api/generations/{id}/rollback`: a new generation with the contents of the target. -/
def handleRollback (id : ℕ) : Task Unit := do
  let row ← call (.getGeneration id)
  match row.manifest with
  | none => throw (.storage .internal)
  | some target => holding .compile do
    let _ ← request .rollback (.rollback target) .deferred

end Dev
