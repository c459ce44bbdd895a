import Mathlib.Data.List.Sort
import Impresspress.Dev.Manifest
import Impresspress.Relational.Table

/-!
# The ledger of generations, the journal and the ledger of builds

## Main definitions

* `Dev.GenerationRow`, `Dev.Generations`: the append-only ledger, and its listings.
* `Dev.RuntimeState`: the journal, which says what is live and what is being activated.
* `Dev.BuildRow`, `Dev.Builds`: the ledger of compiled artifacts, and its listings.

## Main results

* `Dev.mem_listRecent_of_short`: a ledger inside the window is listed whole.
* `Dev.active_not_mem_listPrunable`: what is live is never offered for pruning.
-/

namespace Dev

open Relational (Schema Table)

/-- Upper bound on one page of a listing. -/
def maxListLimit : ℕ := 200

/-! ## Generations -/

inductive GenerationStatus
  | staged
  | validating
  | activating
  | active
  | failed
  | superseded
  deriving DecidableEq

namespace GenerationStatus

/-- Whether an activation is still working on this generation. -/
def isInFlight : GenerationStatus → Bool
  | staged | validating | activating => true
  | active | failed | superseded => false

/-- Whether a row in this status is kept however far down the ledger it has fallen. -/
def survivesRetention (status : GenerationStatus) : Bool := status.isInFlight || status == active

end GenerationStatus

inductive GenerationCause
  | siteWrite
  | siteDelete
  | blockCompile
  | blockRemove
  | rollback
  | seed
  deriving DecidableEq

/-- One ledger row. `manifest` is what its two manifest columns parse to, if they do. -/
structure GenerationRow where
  id : ℕ
  status : GenerationStatus
  cause : GenerationCause
  manifest : Option GenerationManifest
  createdAt : ℕ
  deriving DecidableEq

structure NewGeneration where
  id : ℕ
  cause : GenerationCause
  manifest : GenerationManifest
  deriving DecidableEq

def generationSchema : Schema GenerationRow ℕ := ⟨GenerationRow.id, fun _ _ => false⟩

abbrev Generations := Table generationSchema

/-- Newest first; the id breaks a tie. -/
def GenerationRow.Newer (a b : GenerationRow) : Prop :=
  b.createdAt < a.createdAt ∨ a.createdAt = b.createdAt ∧ b.id ≤ a.id

instance : DecidableRel GenerationRow.Newer := fun a b =>
  inferInstanceAs (Decidable (b.createdAt < a.createdAt ∨ a.createdAt = b.createdAt ∧ b.id ≤ a.id))

instance : IsTrans GenerationRow GenerationRow.Newer where
  trans a b c hab hbc := by
    unfold GenerationRow.Newer at *
    omega

instance : Std.Total GenerationRow.Newer where
  total a b := by
    unfold GenerationRow.Newer
    omega

def newestFirst (rows : List GenerationRow) : List GenerationRow :=
  rows.insertionSort GenerationRow.Newer

/-- The row is strictly below `boundary` in the order of the listings. -/
def GenerationRow.olderThan (row boundary : GenerationRow) : Bool :=
  row.createdAt < boundary.createdAt ||
    (row.createdAt = boundary.createdAt && row.id < boundary.id)

namespace Generations

def listRecent (ledger : Generations) (limit : ℕ) : List GenerationRow :=
  (newestFirst ledger.rows).take (min (max limit 1) maxListLimit)

/-- The generation that is serving; the newest, if there are two. -/
def findActive (ledger : Generations) : Option GenerationRow :=
  (newestFirst (ledger.rows.filter fun row => row.status = .active)).head?

def listInFlight (ledger : Generations) : List GenerationRow :=
  (newestFirst (ledger.rows.filter fun row => row.status.isInFlight)).take maxListLimit

/-- One page of the rows that retention may delete. -/
def listPrunable (ledger : Generations) (boundary : GenerationRow) : List GenerationRow :=
  (newestFirst (ledger.rows.filter fun row =>
    !row.status.survivesRetention && row.olderThan boundary)).take maxListLimit

def deleteMany (ledger : Generations) (ids : List ℕ) : Generations :=
  ids.foldl (fun ledger id => ledger.erase id) ledger

/-- Move a generation to `status`; nothing when there is no such row. -/
def setStatus (ledger : Generations) (id : ℕ) (status : GenerationStatus) :
    Option Generations :=
  (ledger.get? id).bind fun row => ledger.replace { row with status }

end Generations

theorem mem_newestFirst {rows : List GenerationRow} {row : GenerationRow} :
    row ∈ newestFirst rows ↔ row ∈ rows :=
  (List.perm_insertionSort _ rows).mem_iff

theorem mem_of_mem_listRecent {ledger : Generations} {limit : ℕ} {row : GenerationRow}
    (h : row ∈ ledger.listRecent limit) : row ∈ ledger.rows :=
  mem_newestFirst.mp (List.mem_of_mem_take h)

theorem mem_listPrunable {ledger : Generations} {boundary row : GenerationRow}
    (h : row ∈ ledger.listPrunable boundary) :
    row ∈ ledger.rows ∧ row.status.survivesRetention = false ∧ row.olderThan boundary := by
  have hmem := List.mem_filter.mp (mem_newestFirst.mp (List.mem_of_mem_take h))
  simpa [and_assoc] using hmem

/-- What is live is never offered for pruning. -/
theorem active_not_mem_listPrunable {ledger : Generations} {boundary row : GenerationRow}
    (h : row.status = .active) : row ∉ ledger.listPrunable boundary := by
  intro hmem
  have hsurvives := (mem_listPrunable hmem).2.1
  rw [h] at hsurvives
  cases hsurvives

theorem mem_listInFlight {ledger : Generations} {row : GenerationRow}
    (h : row ∈ ledger.listInFlight) : row ∈ ledger.rows ∧ row.status.isInFlight = true := by
  have hmem := List.mem_filter.mp (mem_newestFirst.mp (List.mem_of_mem_take h))
  simpa using hmem

/-- A row of the ledger is found by its id. -/
theorem get?_of_mem {ledger : Generations} {row : GenerationRow} (h : row ∈ ledger.rows) :
    ledger.get? row.id = some row :=
  Table.get?_eq_some_iff.mpr ⟨h, rfl⟩

theorem get?_setStatus {ledger ledger' : Generations} {id : ℕ} {status : GenerationStatus}
    (h : ledger.setStatus id status = some ledger') (k : ℕ) :
    ledger'.get? k =
      if k = id then (ledger.get? id).map fun row => { row with status } else ledger.get? k := by
  unfold Generations.setStatus at h
  cases hget : ledger.get? id with
  | none =>
    rw [hget] at h
    cases h
  | some row =>
    rw [hget] at h
    have hid : row.id = id := (Table.get?_eq_some_iff.mp hget).2
    have hold : ledger.get? row.id = some row := by rw [hid, hget]
    by_cases hk : k = id
    · rw [if_pos hk, hk, ← hid]
      exact Table.get?_replace_self h hold
    · rw [if_neg hk]
      refine Table.get?_replace_of_ne h fun hkey => hk ?_
      exact hkey.trans hid

theorem get?_of_setStatus {ledger ledger' : Generations} {id : ℕ} {status : GenerationStatus}
    (h : ledger.setStatus id status = some ledger') : ∃ row, ledger.get? id = some row := by
  unfold Generations.setStatus at h
  cases hget : ledger.get? id with
  | none =>
    rw [hget] at h
    cases h
  | some row => exact ⟨row, rfl⟩

theorem get?_deleteMany (ledger : Generations) (ids : List ℕ) (k : ℕ) :
    (ledger.deleteMany ids).get? k = if k ∈ ids then none else ledger.get? k := by
  unfold Generations.deleteMany
  induction ids generalizing ledger with
  | nil => simp
  | cons id ids ih =>
    rw [List.foldl_cons, ih]
    by_cases hk : k = id
    · subst hk
      simp [Table.get?_erase_self]
    · rw [Table.get?_erase_of_ne _ hk]
      simp [hk]

theorem get?_insertRow {ledger ledger' : Generations} {row : GenerationRow}
    (h : ledger.insert row = some ledger') (k : ℕ) :
    ledger'.get? k = if k = row.id then some row else ledger.get? k := by
  by_cases hk : k = row.id
  · rw [if_pos hk, hk]
    exact Table.get?_insert_self h
  · rw [if_neg hk]
    exact Table.get?_insert_of_ne h hk

/-- A listing that comes out short of its limit holds the whole ledger. -/
theorem mem_listRecent_of_short {ledger : Generations} {limit : ℕ} (hlimit : 0 < limit)
    (hmax : limit ≤ maxListLimit) (hshort : (ledger.listRecent limit).length < limit)
    {row : GenerationRow} (h : row ∈ ledger.rows) : row ∈ ledger.listRecent limit := by
  have hclamp : min (max limit 1) maxListLimit = limit := by omega
  rw [Generations.listRecent, hclamp] at hshort ⊢
  rw [List.length_take] at hshort
  rw [List.take_of_length_le (by omega)]
  exact mem_newestFirst.mpr h

/-! ## The journal -/

inductive ActivationPhase
  | idle
  | validating
  | buildingRuntime
  | publishing
  | active
  | failed
  deriving DecidableEq

/-- The next value of a 64-bit counter that stops at its largest. -/
def saturatingSucc (n : ℕ) : ℕ := min (n + 1) (2 ^ 64 - 1)

/-- The journal: one row. -/
structure RuntimeState where
  activeGenerationId : Option ℕ
  desiredGenerationId : Option ℕ
  activationPhase : ActivationPhase
  generation : ℕ
  deriving DecidableEq

/-! ## Builds -/

inductive BuildStatus
  | staged
  | valid
  | invalid
  deriving DecidableEq

/-- Whether the compile has not reached a generation yet. -/
def BuildStatus.isInFlight : BuildStatus → Bool
  | staged => true
  | valid | invalid => false

structure BuildRow where
  id : ℕ
  blockName : String
  artifactSha256 : Sha
  artifactBytes : ℕ
  status : BuildStatus
  createdAt : ℕ
  deriving DecidableEq

structure NewBuild where
  blockName : String
  artifactSha256 : Sha
  artifactBytes : ℕ
  deriving DecidableEq

def buildSchema : Schema BuildRow ℕ := ⟨BuildRow.id, fun _ _ => false⟩

abbrev Builds := Table buildSchema

namespace Builds

def listInFlight (builds : Builds) : List BuildRow :=
  ((builds.rows.filter fun row => row.status.isInFlight).insertionSort fun a b =>
    b.createdAt < a.createdAt ∨ a.createdAt = b.createdAt ∧ b.id ≤ a.id).take maxListLimit

def isInFlightForArtifact (builds : Builds) (sha : Sha) : Bool :=
  builds.rows.any fun row => row.artifactSha256 == sha && row.status.isInFlight

/-- The rows that are not in flight. -/
def listSettled (builds : Builds) : List BuildRow :=
  builds.rows.filter fun row => !row.status.isInFlight

/-- The newest valid row of an artifact. -/
def latestValidForArtifact (builds : Builds) (sha : Sha) : Option BuildRow :=
  ((builds.rows.filter fun row => row.artifactSha256 == sha && row.status == .valid).insertionSort
    fun a b => b.createdAt < a.createdAt ∨ a.createdAt = b.createdAt ∧ b.id ≤ a.id).head?

/-- The artifacts that the table indexes. -/
def artifactIndex (builds : Builds) : List Sha := (builds.rows.map (·.artifactSha256)).dedup

def deleteForArtifact (builds : Builds) (sha : Sha) : Builds :=
  ⟨builds.rows.filter fun row => row.artifactSha256 ≠ sha,
    builds.compatible.sublist List.filter_sublist⟩

def setStatus (builds : Builds) (id : ℕ) (status : BuildStatus) : Option Builds :=
  (builds.get? id).bind fun row => builds.replace { row with status }

end Builds

end Dev
