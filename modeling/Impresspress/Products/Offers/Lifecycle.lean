import Impresspress.Concurrent.Script
import Impresspress.Products.Repo

/-!
# The lifecycle of one offer

An offer is a row and two tables of children, its variables and its components. `create`,
`updateDraft`, `publish` and `archive` guard every write to the row by its status and, while a
draft is edited, by its revision; the children are rewritten one row at a time behind a flag on
the offer row, `draftUpdating`. Every call can fail with an error and leave the store as it is.

What an offer says (its columns, the checks of `build_offer` and `validate_offer`, the decoding
of `hydrate`) enters the lifecycle only through its outcome, so it is a parameter here.

Source: `blocks/products/repo/offers.rs`, `repo/variables.rs` and `repo/offer_components.rs`.
-/

namespace Products

namespace Offers

open Concurrent

/-- The two tables of an offer's children. -/
inductive ChildTable where
  | offerVariables
  | offerComponents
  deriving DecidableEq, Repr

/-- A child row: its id, its key within the offer, and its other columns. -/
structure ChildRow (Columns : Type) where
  id : ℕ
  key : String
  columns : Columns
  deriving DecidableEq, Repr

/-- What the lifecycle takes from the rest of the block: the request (`OfferDefinitionRequest`),
the columns it defines on the offer row, the children it declares with the columns they are
stored under (`data_for`), the check of a definition (`build_offer`), and the offer that is read
back (`hydrate`) with the check of it (`validate_offer`). `intoValues` is the order in which a
`HashMap` of rows is drained. -/
structure OfferRules where
  Definition : Type
  Terms : Type
  Draft : ChildTable → Type
  Columns : ChildTable → Type
  Offer : Type
  drafts : (t : ChildTable) → Definition → List (Draft t)
  key : (t : ChildTable) → Draft t → String
  dataFor : (t : ChildTable) → Draft t → Except WaferError (Columns t)
  buildOffer : ℕ → Definition → Except WaferError Terms
  hydrate : Terms → ((t : ChildTable) → List (ChildRow (Columns t))) → Except WaferError Offer
  validateOffer : Offer → Except WaferError Unit
  intoValues : (t : ChildTable) → List (ChildRow (Columns t)) → List (ChildRow (Columns t))

variable {R : OfferRules}

/-- The row of an offer. -/
structure OfferRow (R : OfferRules) where
  productId : String
  status : OfferStatus
  version : ℕ
  draftRevision : ℕ
  draftUpdating : Bool
  terms : R.Terms

/-- The row of the offer, its children, the products there are, and the next fresh id. -/
structure OfferStore (R : OfferRules) where
  offer : Option (OfferRow R)
  children : (t : ChildTable) → List (ChildRow (R.Columns t))
  products : List String
  nextId : ℕ

/-- The column assignments of the guarded updates of the offer row. -/
inductive OfferWrite (R : OfferRules) where
  | raise (version : ℕ) (terms : R.Terms) (revision : ℕ)
  | settle
  | publish
  | archive

/-- The offer row after an update. -/
def OfferWrite.apply : OfferWrite R → OfferRow R → OfferRow R
  | raise version terms revision, row =>
    { row with
      version := version, terms := terms, draftRevision := revision, draftUpdating := true }
  | settle, row => { row with draftUpdating := false }
  | publish, row => { row with status := .active }
  | archive, row => { row with status := .archived }

/-- The calls of the lifecycle. `update` filters on the status and, when a revision is given, on
the draft revision. -/
inductive OfferCall (R : OfferRules) where
  | getProduct (productId : String)
  | newId
  | get
  | create (row : OfferRow R)
  | update (status : OfferStatus) (revision : Option ℕ) (write : OfferWrite R)
  | delete
  | list (t : ChildTable)
  | createChild (t : ChildTable) (row : ChildRow (R.Columns t))
  | updateChild (t : ChildTable) (id : ℕ) (key : String) (columns : R.Columns t)
  | deleteChild (t : ChildTable) (id : ℕ)

/-- What each call is answered when it does not fail. -/
@[reducible] def OfferReply : OfferCall R → Type
  | .getProduct _ => Unit
  | .newId => ℕ
  | .get => OfferRow R
  | .create _ => Unit
  | .update .. => ℕ
  | .delete => Unit
  | .list t => List (ChildRow (R.Columns t))
  | .createChild .. => Unit
  | .updateChild .. => Unit
  | .deleteChild .. => Unit

@[reducible] def OfferAnswer (c : OfferCall R) : Type := Except WaferError (OfferReply c)

def notFound : WaferError := ⟨.notFound, "record not found"⟩

/-- The filters of an update. -/
def rowMatches (status : OfferStatus) (revision : Option ℕ) (row : OfferRow R) : Bool :=
  row.status == status && revision.all fun r => row.draftRevision == r

/-- The children after a change of one table. -/
def OfferStore.setChildren (s : OfferStore R) (t : ChildTable)
    (rows : List (ChildRow (R.Columns t))) : OfferStore R :=
  { s with children := Function.update s.children t rows }

/-- How the store answers a call that does not fail. -/
def answer (s : OfferStore R) : (c : OfferCall R) → OfferAnswer c × OfferStore R
  | .getProduct productId =>
    (if productId ∈ s.products then .ok () else .error notFound, s)
  | .newId => (.ok s.nextId, { s with nextId := s.nextId + 1 })
  | .get =>
    match s.offer with
    | none => (.error notFound, s)
    | some row => (.ok row, s)
  | .create row =>
    match s.offer with
    | none => (.ok (), { s with offer := some row })
    | some _ => (.error ⟨.other, "UNIQUE constraint failed"⟩, s)
  | .update status revision write =>
    match s.offer with
    | none => (.ok (0 : ℕ), s)
    | some row =>
      if rowMatches status revision row then
        (.ok (1 : ℕ), { s with offer := some (write.apply row) })
      else (.ok (0 : ℕ), s)
  | .delete => (.ok (), { s with offer := none })
  | .list t => (.ok (s.children t), s)
  | .createChild t row => (.ok (), s.setChildren t (s.children t ++ [row]))
  | .updateChild t id key columns =>
    if (s.children t).any fun row => row.id == id then
      (.ok (), s.setChildren t ((s.children t).map fun row =>
        if row.id == id then { row with key := key, columns := columns } else row))
    else (.error notFound, s)
  | .deleteChild t id => (.ok (), s.setChildren t ((s.children t).filter fun row => row.id != id))

/-- How the store answers: a call that fails leaves it as it is. -/
def perform (failure : Option WaferError) (c : OfferCall R) (s : OfferStore R) :
    OfferAnswer c × OfferStore R :=
  match failure with
  | some error => (.error error, s)
  | none => answer s c

/-- A program of the lifecycle: it ends at the first error, unless that is handled. -/
abbrev OfferProgram (R : OfferRules) := ExceptT WaferError (Program (OfferCall R) OfferAnswer)

/-- One call. -/
def call (c : OfferCall R) : OfferProgram R (OfferReply c) := ExceptT.mk (.call c .done)

/-- A program that reports an error and carries on. -/
def logged (p : OfferProgram R Unit) : OfferProgram R Unit :=
  ExceptT.mk (p.run >>= fun _ => pure (.ok ()))

/-- Replace one child, or add it: the row of its key is taken out of `existing`. -/
def replaceOne (t : ChildTable) (existing : List (ChildRow (R.Columns t))) (draft : R.Draft t) :
    OfferProgram R Unit := do
  let columns ← ExceptT.mk (pure (R.dataFor t draft))
  match existing.find? fun row => row.key == R.key t draft with
  | some row => call (.updateChild t row.id (R.key t draft) columns)
  | none => do
    let id ← call .newId
    call (.createChild t ⟨id, R.key t draft, columns⟩)

/-- The message about a key that is declared twice. -/
def duplicateKey : ChildTable → String → String
  | .offerVariables, key => "duplicate variable key " ++ key
  | .offerComponents, key => "duplicate component key " ++ key

/-- The loop over the declared children; answers the rows whose keys were not declared. -/
def replaceLoop (t : ChildTable) : List (ChildRow (R.Columns t)) → List String →
    List (R.Draft t) → OfferProgram R (List (ChildRow (R.Columns t)))
  | existing, _, [] => pure existing
  | existing, seen, draft :: drafts => do
    if R.key t draft ∈ seen then
      throw ⟨.invalidArgument, duplicateKey t (R.key t draft)⟩
    else
      replaceOne t existing draft
      replaceLoop t (existing.filter fun row => row.key != R.key t draft)
        (R.key t draft :: seen) drafts

/-- Delete child rows one by one. -/
def deleteRows (t : ChildTable) : List (ChildRow (R.Columns t)) → OfferProgram R Unit
  | [] => pure ()
  | row :: rows => do
    call (.deleteChild t row.id)
    deleteRows t rows

/-- The rows by key, as a map: of several rows with one key the last remains. -/
def byKey {Columns : Type} : List (ChildRow Columns) → List (ChildRow Columns)
  | [] => []
  | row :: rows =>
    if rows.any fun later => later.key == row.key then byKey rows else row :: byKey rows

/-- Replace one draft offer's complete variable or component definition. -/
def replaceForOffer (t : ChildTable) (definition : R.Definition) : OfferProgram R Unit := do
  let rows ← call (.list t)
  let rest ← replaceLoop t (byKey rows) [] (R.drafts t definition)
  deleteRows t (R.intoValues t rest)

/-- Delete all variables or all components of the offer. -/
def deleteForOffer (t : ChildTable) : OfferProgram R Unit := do
  let rows ← call (.list t)
  deleteRows t rows

/-- Undo a creation that failed. -/
def cleanupNew : OfferProgram R Unit := do
  logged (deleteForOffer .offerComponents)
  logged (deleteForOffer .offerVariables)
  logged (call .delete)

/-- Apply a write only if the row still holds the expected status and revision. -/
def updateIfCurrent (status : OfferStatus) (revision : Option ℕ) (write : OfferWrite R) :
    OfferProgram R Bool := do
  let rows ← call (.update status revision write)
  return rows == 1

def concurrentTransition : WaferError :=
  ⟨.failedPrecondition, "the offer was modified concurrently; reload it and retry"⟩

def immutableOffer : WaferError :=
  ⟨.failedPrecondition, "active or archived offers are immutable; duplicate the offer to edit it"⟩

/-- An offer with the status its row has. -/
structure ManagedOffer (R : OfferRules) where
  status : OfferStatus
  offer : R.Offer

/-- The two lists of children together. -/
def childSet (variableRows : List (ChildRow (R.Columns .offerVariables)))
    (componentRows : List (ChildRow (R.Columns .offerComponents))) :
    (t : ChildTable) → List (ChildRow (R.Columns t))
  | .offerVariables => variableRows
  | .offerComponents => componentRows

/-- Read the children of an offer row and decode them. -/
def hydrateManaged (row : OfferRow R) : OfferProgram R (ManagedOffer R) := do
  let variableRows ← call (.list .offerVariables)
  let componentRows ← call (.list .offerComponents)
  let offer ← ExceptT.mk (pure (R.hydrate row.terms (childSet variableRows componentRows)))
  return ⟨row.status, offer⟩

def getManaged : OfferProgram R (ManagedOffer R) := do
  let row ← call .get
  hydrateManaged row

/-- Run the replacement of a table, and undo the creation when it fails. -/
def orCleanup (p : OfferProgram R Unit) : OfferProgram R Unit :=
  tryCatch p fun error => do
    cleanupNew
    throw error

def create (productId : String) (definition : R.Definition) : OfferProgram R (ManagedOffer R) := do
  call (.getProduct productId)
  let terms ← ExceptT.mk (pure (R.buildOffer 1 definition))
  call (.create ⟨productId, .draft, 1, 0, true, terms⟩)
  orCleanup (replaceForOffer .offerVariables definition)
  orCleanup (replaceForOffer .offerComponents definition)
  if ← updateIfCurrent .draft (some 0) .settle then
    getManaged
  else
    throw concurrentTransition

/-- `u32::MAX` and `i64::MAX`. -/
def maxVersion : ℕ := 2 ^ 32 - 1

def maxRevision : ℕ := 2 ^ 63 - 1

def updateDraft (productId : String) (definition : R.Definition) :
    OfferProgram R (ManagedOffer R) := do
  let row ← call .get
  if row.productId ≠ productId then
    throw ⟨.notFound, "offer not found"⟩
  else if row.status ≠ .draft then
    throw immutableOffer
  else if row.version ≥ maxVersion then
    throw ⟨.invalidArgument, "offer version is too large"⟩
  else
    let terms ← ExceptT.mk (pure (R.buildOffer (row.version + 1) definition))
    if row.draftRevision ≥ maxRevision then
      throw ⟨.invalidArgument, "offer draft revision is too large"⟩
    else
      -- the row is written first: this write opens the fence for the child rows
      if ← updateIfCurrent .draft (some row.draftRevision)
          (.raise (row.version + 1) terms (row.draftRevision + 1)) then
        replaceForOffer .offerVariables definition
        replaceForOffer .offerComponents definition
        if ← updateIfCurrent .draft (some (row.draftRevision + 1)) .settle then
          getManaged
        else
          throw concurrentTransition
      else
        let current ← call .get
        if current.status ≠ .draft then
          throw immutableOffer
        else
          throw concurrentTransition

def publish (productId : String) : OfferProgram R (ManagedOffer R) := do
  let row ← call .get
  if row.productId ≠ productId then
    throw ⟨.notFound, "offer not found"⟩
  else
    let managed ← hydrateManaged row
    match managed.status with
    | .active => return managed
    | .archived => throw ⟨.failedPrecondition, "archived offers cannot be published"⟩
    | .draft =>
      if row.draftUpdating then
        throw concurrentTransition
      else
        let _ ← ExceptT.mk (pure (R.validateOffer managed.offer))
        -- the revision that was read is compared again, so no draft update has begun since
        if ← updateIfCurrent .draft (some row.draftRevision) .publish then
          getManaged
        else
          let managed ← getManaged
          if managed.status = .active then
            return managed
          else
            throw concurrentTransition

def archive (productId : String) : OfferProgram R (ManagedOffer R) := do
  let row ← call .get
  if row.productId ≠ productId then
    throw ⟨.notFound, "offer not found"⟩
  else
    let managed ← hydrateManaged row
    if managed.status = .archived then
      return managed
    else
      if ← updateIfCurrent managed.status none .archive then
        getManaged
      else
        let managed ← getManaged
        if managed.status = .archived then
          return managed
        else
          throw concurrentTransition

/-- A call on the offer. -/
inductive OfferRequest (R : OfferRules) where
  | create (productId : String) (definition : R.Definition)
  | updateDraft (productId : String) (definition : R.Definition)
  | publish (productId : String)
  | archive (productId : String)

/-- The program of a call. -/
def OfferRequest.program : OfferRequest R → OfferProgram R (ManagedOffer R)
  | create productId definition => Offers.create productId definition
  | updateDraft productId definition => Offers.updateDraft productId definition
  | publish productId => Offers.publish productId
  | archive productId => Offers.archive productId

/-- The call that brings the offer into being. -/
def OfferRequest.creates : OfferRequest R → Bool
  | create .. => true
  | _ => false

/-- The calls of a run on one offer. A creation draws the id of its offer itself, so at most one
of the calls creates this one. -/
structure OfferCalls (R : OfferRules) (ι : Type) where
  request : ι → OfferRequest R
  createdOnce : ∀ i j, (request i).creates → (request j).creates → i = j

/-- Any number of calls on one offer, started from `start` and run along a schedule. -/
def serve {ι : Type} [DecidableEq ι] (calls : OfferCalls R ι) (start : OfferStore R)
    (schedule : List (ι × Option WaferError)) :
    Pool ι (OfferStore R) (OfferAnswer (R := R)) (Except WaferError (ManagedOffer R)) :=
  (Pool.launch start fun i => (calls.request i).program.run).exec perform schedule

end Offers

end Products
