import Impresspress.Dev.Store
import Impresspress.Concurrent.Faults

/-!
# Retention and collection

What an activation leaves behind is cleaned up by a maintenance pass: the generations that have
fallen out of the retention window are deleted, and then the content that nothing retained names.

## Main definitions

* `Dev.retained`: the rows retention keeps.
* `Dev.prune`: deleting the rest.
* `Dev.collect`: deleting the blobs and artifacts that nothing reaches.
* `Dev.maintain`: a pass, one at a time.

## Main results

* `Dev.maintain_keeps`: a pass keeps what its calls keep, and reports no failure.
-/

namespace Dev

open Concurrent Concurrent.Fallible

/-- How many generations the ledger keeps. -/
def retainedGenerations : ℕ := 20

/-- The rows without the ones that are there already. -/
def addMissing (rows older : List GenerationRow) : List GenerationRow :=
  older.foldl (fun rows row => if rows.any (·.id == row.id) then rows else rows ++ [row]) rows

/-- The rows retention keeps: the newest, the one that is serving, and those in flight. -/
def retained : Task (List GenerationRow) := do
  let rows ← call (.listRecent retainedGenerations)
  if rows.length < retainedGenerations then pure rows
  else
    let active ← call .findActive
    let inFlight ← call .listInFlight
    pure (addMissing rows (active.toList ++ inFlight))

/-- Delete page after page of what lies below the boundary, `turns` pages at most. -/
def pruneBelow (boundary : GenerationRow) : ℕ → List GenerationRow → Task (List GenerationRow)
  | 0, pruned => pure pruned
  | turns + 1, pruned => do
    let page ← call (.listPrunable boundary)
    if page.isEmpty then pure pruned
    else
      call (.deleteMany (page.map (·.id)))
      pruneBelow boundary turns (pruned ++ page)

/-- Delete every generation outside the retained set. -/
def prune (turns : ℕ) : Task (List GenerationRow) := do
  let newest ← call (.listRecent retainedGenerations)
  match newest[retainedGenerations - 1]? with
  | none => pure []
  | some boundary => pruneBelow boundary turns []

/-- The content that the rows name. A failed row that cannot be read protects nothing; any other
row that cannot be read stops the collection. -/
def liveContent : List GenerationRow → Except ActivationError (List Sha × List Sha)
  | [] => .ok ([], [])
  | row :: rows => do
    let (blobs, artifacts) ← liveContent rows
    match row.manifest with
    | some manifest =>
      pure (manifest.site.map (·.sha256) ++ blobs, manifest.blocks.map (·.artifactSha256) ++ artifacts)
    | none => if row.status = .failed then pure (blobs, artifacts) else .error (.storage .internal)

/-- Delete the blobs that are not live. The first delete that fails is the last that is tried; what
is still stored is counted. -/
def sweep (live : List Sha) : List (Sha × ℕ) → Option ActivationError → ℕ → ℕ →
    Task (Option ActivationError × ℕ × ℕ)
  | [], failure, bytes, count => pure (failure, bytes, count)
  | (sha, size) :: rest, failure, bytes, count =>
    if failure.isNone && !live.contains sha then do
      let deleted ← attempt (call (.deleteBlob sha))
      match deleted with
      | .ok _ => sweep live rest failure bytes count
      | .error e =>
        sweep live rest (some e) (saturatingAdd u64Max bytes size) (saturatingAdd u32Max count 1)
    else sweep live rest failure (saturatingAdd u64Max bytes size) (saturatingAdd u32Max count 1)

/-- Delete the unreachable blobs, then set the workspace's counters to what the store holds. -/
def collectBlobs (candidates : List (Sha × ℕ)) (live : List Sha) : Task Unit := do
  let ws ← call .loadWorkspace
  let (failure, bytes, count) ← sweep (live ++ ws.shas) candidates none 0 0
  let (changed, ws) := ws.resetBlobTotals bytes count
  if changed then call (.saveWorkspace ws)
  match failure with
  | some e => throw e
  | none => pure ()

/-- The settled build rows whose artifact the store no longer holds. -/
def staleBuildRows (settled : List BuildRow) (listed : List (Sha × ℕ)) : List BuildRow :=
  settled.filter fun row => !(listed.map (·.1)).contains row.artifactSha256

/-- Delete an artifact, and the rows that named it, unless it is live or on its way. -/
def collectArtifact (live : List Sha) (sha : Sha) : Task Unit :=
  if live.contains sha then pure ()
  else do
    -- a stage may have inserted its row after the roots were read
    let inFlight ← call (.isInFlightForArtifact sha)
    if inFlight then pure ()
    else
      call (.deleteArtifact sha)
      call (.deleteForArtifact sha)

/-- The half of a collection under the workspace lock: the blobs, and the artifacts that are live. -/
def collectUnderLock : Task (List Sha) := do
  let blobObjects ← call .listBlobs
  let rows ← retained
  let (liveBlobs, liveArtifacts) ← ExceptT.mk (pure (liveContent rows))
  let builds ← call .listBuildsInFlight
  collectBlobs blobObjects liveBlobs
  pure (liveArtifacts ++ builds.map (·.artifactSha256))

/-- Delete every blob and artifact nothing retained can reach. -/
def collect : Task Unit := do
  let settled ← call .listSettled
  let artifactObjects ← call .listArtifacts
  let liveArtifacts ← holding .workspaceManifest collectUnderLock
  (artifactObjects.map (·.1)).forM (collectArtifact liveArtifacts)
  (staleBuildRows settled artifactObjects).forM fun row => call (.deleteBuild row.id)

/-- Prune, then collect, as reachability is read off the rows that retention keeps. A failure costs
storage and is reported to nobody. -/
def pruneThenCollect (turns : ℕ) : Task Unit := do
  let pruned ← attempt (prune turns)
  match pruned with
  | .error _ => pure ()
  | .ok _ => do
    let _ ← attempt collect
    pure ()

/-- Retire what has fallen out of the window and reclaim what that made unreachable, one pass at a
time. -/
def maintain (turns : ℕ) : Task Unit := holding .maintenance (pruneThenCollect turns)

/-- When the maintenance that an activation leaves behind runs: in a task of its own, after the
reply, or before the activation returns. -/
inductive Maintenance
  | deferred
  | inline (turns : ℕ)
  deriving DecidableEq

/-- Run the pass as `maintenance` says. -/
def scheduleMaintenance : Maintenance → Task Unit
  | .deferred => pure ()
  | .inline turns => maintain turns

/-! ## What a pass touches -/

/-- The calls of a collection, those on the workspace lock apart. -/
def DevCall.collects : DevCall → Bool
  | .listRecent _ | .findActive | .listInFlight | .listBuildsInFlight | .isInFlightForArtifact _
  | .listSettled | .deleteBuild _ | .deleteForArtifact _ | .deleteBlob _ | .listBlobs
  | .deleteArtifact _ | .listArtifacts | .loadWorkspace | .saveWorkspace _ => true
  | _ => false

/-- The calls of a maintenance pass. -/
def DevCall.maintains : DevCall → Bool
  | .listPrunable _ | .deleteMany _ | .lock _ | .unlock _ => true
  | c => c.collects

/-- The calls of a collection, those on the workspace lock included. -/
def DevCall.sweeps : DevCall → Bool
  | .lock _ | .unlock _ => true
  | c => c.collects

theorem DevCall.sweeps_of_collects (c : DevCall) (h : c.collects = true) : c.sweeps = true := by
  cases c <;> first | rfl | exact h

theorem DevCall.maintains_of_sweeps (c : DevCall) (h : c.sweeps = true) :
    c.maintains = true := by
  cases c <;> first | rfl | exact h

theorem holding_only {α : Type} {K : DevCall → Prop} {lock : Lock} {p : Task α}
    (hlock : K (.lock lock)) (hunlock : K (.unlock lock)) (hp : p.run.Only K) :
    (holding lock p).run.Only K :=
  only_bind (only_call hlock) fun _ => only_bind (only_attempt hp) fun result =>
    only_bind (only_call hunlock) fun _ =>
      match result with
      | .ok a => only_pure a
      | .error e => only_throw e

theorem retained_only : retained.run.Only fun c => c.collects := by
  refine only_bind (only_call rfl) fun rows => ?_
  split
  · exact only_pure _
  · exact only_bind (only_call rfl) fun _ => only_bind (only_call rfl) fun _ => only_pure _

theorem pruneBelow_only (boundary : GenerationRow) (turns : ℕ) (pruned : List GenerationRow) :
    (pruneBelow boundary turns pruned).run.Only fun c => c.maintains := by
  induction turns generalizing pruned with
  | zero => exact only_pure _
  | succ turns ih =>
    refine only_bind (only_call rfl) fun page => ?_
    split
    · exact only_pure _
    · exact only_bind (only_call rfl) fun _ => ih _

theorem prune_only (turns : ℕ) : (prune turns).run.Only fun c => c.maintains := by
  refine only_bind (only_call rfl) fun newest => ?_
  split
  · exact only_pure _
  · exact pruneBelow_only _ _ _

theorem sweep_only (live : List Sha) (candidates : List (Sha × ℕ))
    (failure : Option ActivationError) (bytes count : ℕ) :
    (sweep live candidates failure bytes count).run.Only fun c => c.collects := by
  induction candidates generalizing failure bytes count with
  | nil => exact only_pure _
  | cons object rest ih =>
    unfold sweep
    split
    · refine only_bind (only_attempt (only_call rfl)) fun deleted => ?_
      cases deleted with
      | ok _ => exact ih _ _ _
      | error e => exact ih _ _ _
    · exact ih _ _ _

theorem collectBlobs_only (candidates : List (Sha × ℕ)) (live : List Sha) :
    (collectBlobs candidates live).run.Only fun c => c.collects := by
  refine only_bind (only_call rfl) fun ws => only_bind (sweep_only _ _ _ _ _) fun swept => ?_
  obtain ⟨failure, bytes, count⟩ := swept
  dsimp only
  split
  · refine only_bind (only_call rfl) fun _ => ?_
    split
    · exact only_throw _
    · exact only_pure _
  · split
    · exact only_throw _
    · exact only_pure _

theorem collectUnderLock_only : collectUnderLock.run.Only fun c => c.collects := by
  refine only_bind (only_call rfl) fun _ => only_bind retained_only fun rows => ?_
  refine only_bind (p := ExceptT.mk (pure (liveContent rows))) trivial fun live => ?_
  exact only_bind (only_call rfl) fun _ => only_bind (collectBlobs_only _ _) fun _ => only_pure _

theorem collectArtifact_only (live : List Sha) (sha : Sha) :
    (collectArtifact live sha).run.Only fun c => c.collects := by
  unfold collectArtifact
  split
  · exact only_pure _
  · refine only_bind (only_call rfl) fun inFlight => ?_
    split
    · exact only_pure _
    · exact only_bind (only_call rfl) fun _ => only_call rfl

theorem collect_sweeps : collect.run.Only fun c => c.sweeps := by
  refine only_bind (only_call rfl) fun settled => only_bind (only_call rfl) fun objects => ?_
  refine only_bind (holding_only rfl rfl
    (collectUnderLock_only.mono DevCall.sweeps_of_collects)) fun live => ?_
  refine only_bind (only_forM fun sha _ => ?_) fun _ => only_forM fun row _ => only_call rfl
  exact (collectArtifact_only live sha).mono DevCall.sweeps_of_collects

theorem collect_only : collect.run.Only fun c => c.maintains :=
  collect_sweeps.mono DevCall.maintains_of_sweeps

theorem pruneThenCollect_keeps {I : DevStore → Prop} (turns : ℕ)
    (hI : ∀ chance c s, c.maintains = true → I s → I (perform chance c s).2) {s : DevStore}
    (hs : I s) (failed : List DevCall) :
    (pruneThenCollect turns).run.Ensures (recording perform) (s, failed) fun result x =>
      result = .ok () ∧ I x.1 := by
  refine Program.ensures_bind.mpr (Program.ensures_bind.mpr (Program.Ensures.mono
    ((prune_only turns).keeps hI hs failed) fun pruned x hx => ?_))
  cases pruned with
  | error e => exact ⟨rfl, hx⟩
  | ok rows =>
    refine Program.ensures_bind.mpr (Program.ensures_bind.mpr (Program.Ensures.mono
      (collect_only.keeps hI hx x.2) fun collected y hy => ?_))
    exact ⟨rfl, hy⟩

/-- A pass keeps what its calls keep, and reports no failure. -/
theorem maintain_keeps {I : DevStore → Prop} (turns : ℕ)
    (hI : ∀ chance c s, c.maintains = true → I s → I (perform chance c s).2) {s : DevStore}
    (hs : I s) (failed : List DevCall) :
    (maintain turns).run.Ensures (recording perform) (s, failed) fun result x =>
      result = .ok () ∧ I x.1 := by
  refine Fallible.ensures_call (fun chance _ _ => ?_) fun chance e h => by cases h
  refine Program.ensures_bind.mpr (Program.ensures_bind.mpr (Program.Ensures.mono
    (pruneThenCollect_keeps turns hI (hI chance (.lock .maintenance) s rfl hs) failed)
    fun result x hx => ?_))
  obtain ⟨rfl, hx⟩ := hx
  exact fun chance => ⟨rfl, hI chance (.unlock .maintenance) x.1 rfl hx⟩

end Dev
