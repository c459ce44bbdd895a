import Impresspress.Concurrent.Fallible
import Impresspress.Dev.Ledger

/-!
# The calls of the sandbox

What an instance keeps (the ledgers and the journal in its database, the workspace, the blobs,
the artifacts and the published folder in its object store, the runtime it runs) and how each call
acts on it. Every call but those on the locks and the drawing of an id may fail, and then changes
nothing.

## Main definitions

* `Dev.DevStore`: what an instance keeps.
* `Dev.DevCall`, `Dev.Reply`, `Dev.perform`: the calls and what they do.
* `Dev.Task`: programs over these calls.

## Main results

* `Dev.perform_error`: a call that fails changes nothing but the time.
-/

namespace Dev

open Concurrent
open Relational (Table)

inductive ErrorCode
  | notFound
  | internal
  deriving DecidableEq

/-- Content that a manifest names and no store holds. -/
inductive Missing
  | blob (sha : Sha)
  | artifact (block : String) (sha : Sha)
  deriving DecidableEq

/-- Why an activation did not happen, or did not finish. A failed call is reported as the
activation reports it. -/
inductive ActivationError
  | validation (missing : List Missing)
  | runtime
  | storage (code : ErrorCode)
  | rollbackNotAdopted (generationId : ℕ)
  deriving DecidableEq

/-- The runtime that runs, and the one that the last rebuild swapped out. -/
structure Runtime where
  blocks : List DynamicBlockSpec
  retained : Option (List DynamicBlockSpec)

/-- The sandbox's own `llms.txt`: its recorded text, and what the last publish left of it. -/
structure LlmsRow where
  text : Option Sha
  publishedSha256 : Option Sha
  deriving DecidableEq

inductive Lock
  | workspaceManifest
  | maintenance
  | compile
  | activation
  deriving DecidableEq

structure DevStore where
  generations : Generations
  journal : RuntimeState
  builds : Builds
  llms : LlmsRow
  folder : Folder
  blobs : AList fun _ : Sha => ℕ
  artifacts : AList fun _ : Sha => ℕ
  workspace : Workspace
  runtime : Runtime
  held : Lock → Bool
  /-- The ids handed out so far. -/
  ids : List ℕ
  clock : ℕ

/-- What a caller cannot know: whether its call fails, the time that passes, the id that is drawn,
and what the host makes of a guest. -/
structure Chance where
  fails : Bool
  elapsed : ℕ
  uuid : ℕ
  accepts : Bool

inductive DevCall
  -- `repo::generations`
  | insertGeneration (new : NewGeneration)
  | getGeneration (id : ℕ)
  | lookupGeneration (id : ℕ)
  | setStatus (id : ℕ) (status : GenerationStatus)
  | listRecent (limit : ℕ)
  | findActive
  | listInFlight
  | listPrunable (boundary : GenerationRow)
  | deleteMany (ids : List ℕ)
  -- `repo::runtime_state`
  | readState
  | writeState (state : RuntimeState)
  -- `repo::builds`
  | insertBuild (new : NewBuild)
  | setBuildStatus (id : ℕ) (status : BuildStatus)
  | listBuildsInFlight
  | isInFlightForArtifact (sha : Sha)
  | latestValidForArtifact (sha : Sha)
  | artifactIndex
  | listSettled
  | deleteBuild (id : ℕ)
  | deleteForArtifact (sha : Sha)
  -- `repo::seed_info`
  | llms
  | setLlmsPublished (sha256 : Option Sha)
  -- the object store
  | putSite (path : Path) (sha : Sha)
  | deleteSite (path : Path)
  | getBlob (sha : Sha)
  | blobExists (sha : Sha)
  | putBlob (sha : Sha) (size : ℕ)
  | deleteBlob (sha : Sha)
  | listBlobs
  | putArtifact (sha : Sha) (size : ℕ)
  | deleteArtifact (sha : Sha)
  | listArtifacts
  | loadWorkspace
  | saveWorkspace (ws : Workspace)
  -- the host
  | rebuild (blocks : List DynamicBlockSpec)
  | restorePrevious
  | inspect (sha : Sha)
  | probe (spec : DynamicBlockSpec)
  -- the process
  | newId
  | lock (lock : Lock)
  | unlock (lock : Lock)

/-- What a call answers when it does not fail. -/
@[reducible] def Reply : DevCall → Type
  | .insertGeneration _ | .getGeneration _ => GenerationRow
  | .lookupGeneration _ | .findActive => Option GenerationRow
  | .listRecent _ | .listInFlight | .listPrunable _ => List GenerationRow
  | .readState => RuntimeState
  | .insertBuild _ => BuildRow
  | .listBuildsInFlight | .listSettled => List BuildRow
  | .isInFlightForArtifact _ | .deleteSite _ | .blobExists _ | .inspect _ | .probe _ => Bool
  | .latestValidForArtifact _ => Option BuildRow
  | .artifactIndex => List Sha
  | .llms => LlmsRow
  | .listBlobs | .listArtifacts => List (Sha × ℕ)
  | .loadWorkspace => Workspace
  | .newId => ℕ
  | .setStatus .. | .deleteMany _ | .writeState _ | .setBuildStatus .. | .deleteBuild _
  | .deleteForArtifact _ | .setLlmsPublished _ | .putSite .. | .getBlob _ | .putBlob ..
  | .deleteBlob _ | .putArtifact .. | .deleteArtifact _ | .saveWorkspace _ | .rebuild _
  | .restorePrevious | .lock _ | .unlock _ => Unit

/-- Whether the call leaves the process, so that it can fail. -/
def DevCall.mayFail : DevCall → Bool
  | .newId | .lock _ | .unlock _ => false
  | _ => true

/-- How an activation reports that the call failed. -/
def DevCall.failure : DevCall → ActivationError
  | .rebuild _ | .restorePrevious => .runtime
  | _ => .storage .internal

namespace DevStore

/-- An id that was not handed out before: the one drawn, unless it was. -/
def freshId (s : DevStore) (uuid : ℕ) : ℕ :=
  if uuid ∈ s.ids then s.ids.foldr max 0 + 1 else uuid

/-- A directory of the published folder. -/
def isSiteDirectory (s : DevStore) (path : Path) : Bool :=
  s.folder.files.keys.any fun stored => Path.under path stored

end DevStore

/-- What a call does that does not fail at large. It may still be refused: a row that is not
there, a name that is a directory, an artifact that is gone. -/
def answer (chance : Chance) : (c : DevCall) → DevStore → Outcome ActivationError Reply c × DevStore
  | .insertGeneration new, s =>
    let row : GenerationRow := ⟨new.id, .staged, new.cause, some new.manifest, s.clock⟩
    match s.generations.insert row with
    | some generations => (.ok row, { s with generations })
    | none => (.error (.storage .internal), s)
  | .getGeneration id, s =>
    match s.generations.get? id with
    | some row => (.ok row, s)
    | none => (.error (.storage .notFound), s)
  | .lookupGeneration id, s => (.ok (s.generations.get? id), s)
  | .setStatus id status, s =>
    match Generations.setStatus s.generations id status with
    | some generations => (.ok (), { s with generations })
    | none => (.error (.storage .notFound), s)
  | .listRecent limit, s => (.ok (Generations.listRecent s.generations limit), s)
  | .findActive, s => (.ok (Generations.findActive s.generations), s)
  | .listInFlight, s => (.ok (Generations.listInFlight s.generations), s)
  | .listPrunable boundary, s => (.ok (Generations.listPrunable s.generations boundary), s)
  | .deleteMany ids, s => (.ok (), { s with generations := Generations.deleteMany s.generations ids })
  | .readState, s => (.ok s.journal, s)
  | .writeState state, s => (.ok (), { s with journal := state })
  | .insertBuild new, s =>
    let id := s.freshId chance.uuid
    let row : BuildRow :=
      ⟨id, new.blockName, new.artifactSha256, new.artifactBytes, .staged, s.clock⟩
    match s.builds.insert row with
    | some builds => (.ok row, { s with builds, ids := id :: s.ids })
    | none => (.error (.storage .internal), s)
  | .setBuildStatus id status, s =>
    match Builds.setStatus s.builds id status with
    | some builds => (.ok (), { s with builds })
    | none => (.error (.storage .notFound), s)
  | .listBuildsInFlight, s => (.ok (Builds.listInFlight s.builds), s)
  | .isInFlightForArtifact sha, s => (.ok (Builds.isInFlightForArtifact s.builds sha), s)
  | .latestValidForArtifact sha, s => (.ok (Builds.latestValidForArtifact s.builds sha), s)
  | .artifactIndex, s => (.ok (Builds.artifactIndex s.builds), s)
  | .listSettled, s => (.ok (Builds.listSettled s.builds), s)
  | .deleteBuild id, s => (.ok (), { s with builds := s.builds.erase id })
  | .deleteForArtifact sha, s =>
    (.ok (), { s with builds := Builds.deleteForArtifact s.builds sha })
  | .llms, s => (.ok s.llms, s)
  | .setLlmsPublished sha256, s =>
    (.ok (), { s with llms := { s.llms with publishedSha256 := sha256 } })
  | .putSite path sha, s =>
    match s.folder.put path sha with
    | some folder => (.ok (), { s with folder })
    | none => (.error (.storage .internal), s)
  | .deleteSite path, s =>
    if s.isSiteDirectory path then (.error (.storage .internal), s)
    else (.ok (s.folder.lookup path).isSome, { s with folder := s.folder.erase path })
  | .getBlob sha, s =>
    if sha ∈ s.blobs then (.ok (), s) else (.error (.storage .notFound), s)
  | .blobExists sha, s => (.ok (decide (sha ∈ s.blobs)), s)
  | .putBlob sha size, s => (.ok (), { s with blobs := s.blobs.insert sha size })
  | .deleteBlob sha, s => (.ok (), { s with blobs := s.blobs.erase sha })
  | .listBlobs, s => (.ok (s.blobs.entries.map fun entry => (entry.1, entry.2)), s)
  | .putArtifact sha size, s => (.ok (), { s with artifacts := s.artifacts.insert sha size })
  | .deleteArtifact sha, s => (.ok (), { s with artifacts := s.artifacts.erase sha })
  | .listArtifacts, s => (.ok (s.artifacts.entries.map fun entry => (entry.1, entry.2)), s)
  | .loadWorkspace, s => (.ok s.workspace, s)
  | .saveWorkspace ws, s => (.ok (), { s with workspace := ws })
  | .rebuild blocks, s =>
    if blocks.all fun spec => spec.artifactSha256 ∈ s.artifacts then
      (.ok (), { s with runtime := ⟨blocks, some s.runtime.blocks⟩ })
    else (.error .runtime, s)
  | .restorePrevious, s =>
    match s.runtime.retained with
    | some blocks => (.ok (), { s with runtime := ⟨blocks, none⟩ })
    | none => (.error .runtime, s)
  | .inspect _, s => (.ok chance.accepts, s)
  | .probe _, s => (.ok chance.accepts, s)
  | .newId, s =>
    let id := s.freshId chance.uuid
    (.ok id, { s with ids := id :: s.ids })
  | .lock lock, s => (.ok (), { s with held := fun l => if l = lock then true else s.held l })
  | .unlock lock, s => (.ok (), { s with held := fun l => if l = lock then false else s.held l })

/-- One call: time passes, and then it fails or it does what it does. -/
def perform (chance : Chance) (c : DevCall) (s : DevStore) :
    Outcome ActivationError Reply c × DevStore :=
  let s := { s with clock := s.clock + chance.elapsed }
  if c.mayFail && chance.fails then (.error c.failure, s) else answer chance c s

/-- Programs of the sandbox. -/
abbrev Task := Fallible ActivationError Reply

/-- One call. -/
abbrev call (c : DevCall) : Task (Reply c) := Fallible.call c

/-- Run `p` while holding `lock`; it is released however `p` ends. -/
def holding {α : Type} (lock : Lock) (p : Task α) : Task α := do
  call (.lock lock)
  let result ← Fallible.attempt p
  call (.unlock lock)
  ExceptT.mk (pure result)

/-- The store a while later. -/
def DevStore.after (s : DevStore) (elapsed : ℕ) : DevStore :=
  { s with clock := s.clock + elapsed }

theorem perform_of_fails {chance : Chance} {c : DevCall} (hfails : chance.fails = true)
    (hc : c.mayFail = true) (s : DevStore) :
    perform chance c s = (.error c.failure, s.after chance.elapsed) := by
  simp [perform, hfails, hc, DevStore.after]

theorem perform_of_not_fails {chance : Chance} {c : DevCall} (hfails : chance.fails = false)
    (s : DevStore) : perform chance c s = answer chance c (s.after chance.elapsed) := by
  simp [perform, hfails, DevStore.after]

/-- A call that does not fail does what it does, a while later. -/
theorem answer_of_perform {chance : Chance} {c : DevCall} {s s' : DevStore} {reply : Reply c}
    (h : perform chance c s = (.ok reply, s')) :
    answer chance c (s.after chance.elapsed) = (.ok reply, s') := by
  unfold perform at h
  dsimp only at h
  split at h
  · cases h
  · exact h

private theorem answer_error {chance : Chance} {c : DevCall} {s s' : DevStore}
    {e : ActivationError} (h : answer chance c s = (.error e, s')) : s' = s := by
  cases c <;> simp only [answer] at h <;> (try split at h) <;> cases h <;> rfl

/-- A call that fails changes nothing but the time. -/
theorem perform_error {chance : Chance} {c : DevCall} {s s' : DevStore} {e : ActivationError}
    (h : perform chance c s = (.error e, s')) : s' = s.after chance.elapsed := by
  unfold perform at h
  dsimp only at h
  split at h
  · cases h
    rfl
  · exact answer_error h

/-- The calls that only look. -/
def DevCall.reads : DevCall → Bool
  | .getGeneration _ | .lookupGeneration _ | .listRecent _ | .findActive | .listInFlight
  | .listPrunable _ | .readState | .listBuildsInFlight | .isInFlightForArtifact _
  | .latestValidForArtifact _ | .artifactIndex | .listSettled | .llms | .getBlob _ | .blobExists _ | .listBlobs | .listArtifacts | .loadWorkspace
  | .inspect _ | .probe _ => true
  | _ => false

/-- A call that only looks changes nothing but the time. -/
theorem perform_reads {c : DevCall} (h : c.reads) (chance : Chance) (s : DevStore) :
    (perform chance c s).2 = s.after chance.elapsed := by
  unfold perform
  dsimp only
  split
  · rfl
  cases c with
  | insertGeneration _ | setStatus _ _ | deleteMany _ | writeState _ | insertBuild _
  | setBuildStatus _ _ | deleteBuild _ | deleteForArtifact _ | setLlmsPublished _ | putSite _ _
  | deleteSite _ | putBlob _ _ | deleteBlob _ | putArtifact _ _ | deleteArtifact _
  | saveWorkspace _ | rebuild _ | restorePrevious | newId | lock _ | unlock _ => cases h
  | _ =>
    simp only [answer]
    first
      | rfl
      | split <;> rfl

theorem freshId_not_mem (s : DevStore) (uuid : ℕ) : s.freshId uuid ∉ s.ids := by
  have hle : ∀ ids : List ℕ, ∀ id ∈ ids, id ≤ ids.foldr max 0 := by
    intro ids
    induction ids with
    | nil => exact fun id h => absurd h List.not_mem_nil
    | cons first ids ih =>
      intro id hid
      rw [List.foldr_cons]
      rcases List.mem_cons.mp hid with rfl | hid
      · exact Nat.le_max_left ..
      · exact Nat.le_trans (ih id hid) (Nat.le_max_right ..)
  unfold DevStore.freshId
  split
  · intro hmem
    exact absurd (hle _ _ hmem) (by omega)
  · assumption

end Dev
