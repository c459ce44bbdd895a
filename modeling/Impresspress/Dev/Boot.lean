import Impresspress.Dev.Activation

/-!
# Boot convergence

A process that starts finds in the journal what the one before it was doing. It settles what was
left in flight, finishes the activation that the journal names, or puts the active site back.

## Main definitions

* `Dev.activeOrClear`: the generation that the journal says is live, or a cleared pointer.
* `Dev.retireAbandoned`: closing what the previous process did not finish.
* `Dev.convergeOnBoot`: the convergence, which answers with the blocks that are to run.
* `Dev.install`: what runs before the first request arrives.
-/

namespace Dev

open Concurrent Concurrent.Fallible

/-- A generation the journal names, as boot recovery reads it. -/
inductive Journalled
  | loaded (generation : LoadedGeneration)
  /-- The row is gone, or its manifest cannot be read. -/
  | dangling

def journalled : Option GenerationRow → Journalled
  | some row =>
    match row.manifest with
    | some manifest => .loaded (row, manifest)
    | none => .dangling
  | none => .dangling

/-- A dangling pointer is told from a read that failed. -/
def loadJournalled (id : ℕ) : Task Journalled := do
  let row ← call (.lookupGeneration id)
  pure (journalled row)

/-- Close a generation that could not be loaded, if its row exists at all. -/
def abandonDangling (id : ℕ) : Task Unit := do
  let found ← attempt (call (.getGeneration id))
  match found with
  | .ok _ => call (.setStatus id .failed)
  | .error _ => pure ()

/-- The generation the journal says is live, or nothing after clearing a pointer that cannot be
loaded, with the journal as it stands then. -/
def activeOrClear (state : RuntimeState) : Task (Option LoadedGeneration × RuntimeState) :=
  match state.activeGenerationId with
  | none => pure (none, state)
  | some id => do
    let active ← loadJournalled id
    match active with
    | .loaded generation => pure (some generation, state)
    | .dangling => do
      abandonDangling id
      let cleared := { state with activeGenerationId := none }
      call (.writeState cleared)
      pure (none, cleared)

/-- Close the generations in flight that the journal does not name, as far as that works. -/
def retireGenerations (desired : Option ℕ) : List GenerationRow → Task Unit
  | [] => pure ()
  | row :: rows =>
    if desired = some row.id then retireGenerations desired rows
    else do
      let _ ← attempt (call (.setStatus row.id .failed))
      retireGenerations desired rows

/-- Settle every build in flight: it is accepted if its artifact is vouched for, else closed. -/
def retireInFlight (vouched : List Sha) : Task Unit := do
  let rows ← call .listBuildsInFlight
  rows.forM fun row => call (.setBuildStatus row.id
    (if vouched.contains row.artifactSha256 then .valid else .invalid))

/-- Settle the builds in flight against the generations that the journal vouches for. -/
def retireBuilds (desired : Option ℕ) (vouched : List Sha) : Task Unit :=
  match desired with
  | none => do
    let _ ← attempt (retireInFlight vouched)
    pure ()
  | some id => do
    let loaded ← attempt (loadJournalled id)
    match loaded with
    | .ok (.loaded generation) => do
      let _ ← attempt (retireInFlight (vouched ++ generation.2.blocks.map (·.artifactSha256)))
      pure ()
    | .ok .dangling => do
      let _ ← attempt (retireInFlight vouched)
      pure ()
    -- nothing is known of what the generation names, so no build is judged
    | .error _ => pure ()

/-- Close out what the previous process did not finish. -/
def retireAbandoned (state : RuntimeState) (previous : Option LoadedGeneration) : Task Unit := do
  let inFlight ← attempt (call .listInFlight)
  retireGenerations state.desiredGenerationId (inFlight.toOption.getD [])
  retireBuilds state.desiredGenerationId
    ((previous.map fun generation => generation.2.blocks.map (·.artifactSha256)).getD [])

/-- Publish the active site again after a convergence that did not happen. -/
def restoreActiveSite (published : Option SiteManifest) (previous : Option LoadedGeneration) :
    Task Unit :=
  match previous with
  | none => pure ()
  | some generation => do
    let _ ← publishSite published generation.2.site

/-- Put the journal back at rest, leaving the active generation alone. -/
def clearJournal (state : RuntimeState) : Task Unit :=
  call (.writeState { state with desiredGenerationId := none, activationPhase := .idle })

/-- Finish the activation that the journal names, if it names one. -/
def convergeOnDesired (state : RuntimeState) (previous : Option LoadedGeneration) (turns : ℕ) :
    Task Unit :=
  match state.desiredGenerationId with
  | none => pure ()
  | some desired => do
    let found ← loadJournalled desired
    match found with
    | .loaded (row, manifest) => do
      let activated ← attempt
        (activateStaged ⟨row, manifest, previous⟩ none state (.inline turns))
      match activated with
      | .ok _ => pure ()
      | .error _ => restoreActiveSite (some manifest.site) previous
    | .dangling => do
      abandonDangling desired
      restoreActiveSite none previous
      clearJournal state

/-- Converge on whatever the journal says was in flight. -/
def convergeOnBoot (turns : ℕ) : Task (List DynamicBlockSpec) := do
  let state ← call .readState
  let (previous, state) ← activeOrClear state
  retireAbandoned state previous
  convergeOnDesired state previous turns
  -- converging may have activated the desired generation
  let state ← call .readState
  let (active, _) ← activeOrClear state
  pure ((active.map (·.2.blocks)).getD [])

/-- This instance has never published anything. -/
def isFresh : Task Bool := do
  let state ← call .readState
  if state.activeGenerationId.isSome then pure false
  else
    let recent ← call (.listRecent 1)
    pure recent.isEmpty

/-- Activate the generation that a seed bundle was imported as, on a fresh instance. -/
def seedOnBoot (seed : Option GenerationManifest) (turns : ℕ) : Task Unit := do
  let fresh ← isFresh
  match fresh, seed with
  | true, some manifest => do
    let _ ← request .seed (.seed manifest) (.inline turns)
  | _, _ => pure ()

/-- Seed, then converge; a failed seed is reported and no more. -/
def install (seed : Option GenerationManifest) (turns : ℕ) : Task (List DynamicBlockSpec) := do
  let _ ← attempt (seedOnBoot seed turns)
  convergeOnBoot turns

end Dev
