import Impresspress.Products.Offers.Lifecycle

/-!
# The draft fence of an offer

Which calls on an offer may touch what: child rows are written only by a call that has itself
opened the fence of the row, by creating it or by advancing its revision, and an offer is
published only by a call that has read the row settled at the revision it compares, and then
its children.

## Main definitions

* `Products.Offers.Issues`: what a call of each kind may issue.
* `Products.Offers.Reviewed`: what a call has read that publishes the offer.

## Main results

* `Products.Offers.serve_genuine`: every call of every run is of that kind.
-/

namespace Products

namespace Offers

open Concurrent Discipline

variable {R : OfferRules} {ι : Type}

abbrev OfferMoment (R : OfferRules) (ι : Type) := Moment ι (OfferStore R) (OfferAnswer (R := R))

abbrev OfferHistory (R : OfferRules) (ι : Type) := History ι (OfferStore R) (OfferAnswer (R := R))

/-- The call created the offer row, or opened the fence of the row for a draft update. -/
def opensOf : (c : OfferCall R) → OfferAnswer c → Bool
  | .create _, .ok _ => true
  | .update _ _ (.raise ..), .ok rows => (rows : ℕ) == 1
  | _, _ => false

/-- The call made the offer active. -/
def publishesOf : (c : OfferCall R) → OfferAnswer c → Bool
  | .update _ _ .publish, .ok rows => (rows : ℕ) == 1
  | _, _ => false

/-- The offer row that a call read. -/
def rowReadOf : (c : OfferCall R) → OfferAnswer c → Option (OfferRow R)
  | .get, .ok row => some row
  | _, _ => none

/-- The child rows that a call listed. -/
def listedOf (t : ChildTable) :
    (c : OfferCall R) → OfferAnswer c → Option (List (ChildRow (R.Columns t)))
  | .list t', .ok rows => if h : t' = t then some (h ▸ rows) else none
  | _, _ => none

/-- The call inserts, changes or deletes a child row of the table. -/
def OfferCall.writes (t : ChildTable) : OfferCall R → Bool
  | createChild t' _ => t' == t
  | updateChild t' .. => t' == t
  | deleteChild t' _ => t' == t
  | _ => false

def opens (m : OfferMoment R ι) : Bool := opensOf m.call m.answer

def publishes (m : OfferMoment R ι) : Bool := publishesOf m.call m.answer

def rowRead (m : OfferMoment R ι) : Option (OfferRow R) := rowReadOf m.call m.answer

def listed (t : ChildTable) (m : OfferMoment R ι) : Option (List (ChildRow (R.Columns t))) :=
  listedOf t m.call m.answer

/-- The call has opened the fence. -/
def Opened (own : OfferHistory R ι) : Prop := ∃ m ∈ own, opens m

/-- All that the call has done is read a settled draft at this revision, then its variables, then
its components, and found them valid. -/
def Reviewed (own : OfferHistory R ι) (revision : ℕ) : Prop :=
  ∃ readRow readVariables readComponents row variableRows componentRows offer,
    own = [readComponents, readVariables, readRow] ∧ rowRead readRow = some row ∧
    listed .offerVariables readVariables = some variableRows ∧
    listed .offerComponents readComponents = some componentRows ∧
    row.status = .draft ∧ row.draftUpdating = false ∧ row.draftRevision = revision ∧
    R.hydrate row.terms (childSet variableRows componentRows) = .ok offer ∧
    R.validateOffer offer = .ok ()

/-- What a call that serves `request` and has so far done `own` may issue next. -/
def Issues (request : OfferRequest R) (own : OfferHistory R ι) : OfferCall R → Prop
  | .getProduct _ => True
  | .newId => True
  | .get => True
  | .list _ => True
  | .create _ => request.creates ∧ ¬ Opened own
  | .update status revision (.raise _ _ next) =>
      request.creates = false ∧ status = .draft ∧
        ∃ current, revision = some current ∧ next = current + 1
  | .update _ _ .settle => True
  | .update status revision .publish =>
      status = .draft ∧ ∃ current, revision = some current ∧ Reviewed own current
  | .update _ _ .archive => True
  | .delete => request.creates ∧ Opened own
  | .createChild .. => Opened own
  | .updateChild .. => Opened own
  | .deleteChild .. => Opened own

/-- What a call may issue when it has opened the fence. -/
def Behind (creates : Bool) : OfferCall R → Prop
  | .newId => True
  | .get => True
  | .list _ => True
  | .update _ _ .settle => True
  | .delete => creates
  | .createChild .. => True
  | .updateChild .. => True
  | .deleteChild .. => True
  | _ => False

/-- What a call may issue that has not opened the fence: reads, and archiving. -/
def Reads : OfferCall R → Prop
  | .get => True
  | .list _ => True
  | .update _ _ .archive => True
  | _ => False

section Only

variable {K : OfferCall R → Prop}

theorem call_only {c : OfferCall R} (h : K c) : (call c).run.Only K := ⟨h, fun _ => trivial⟩

theorem pure_only {α : Type} (x : Except WaferError α) :
    (ExceptT.mk (pure x) : OfferProgram R α).run.Only K := trivial

theorem hydrateManaged_only (hlist : ∀ t, K (.list t)) (row : OfferRow R) :
    (hydrateManaged row).run.Only K :=
  Program.Only.bind_except (call_only (hlist _)) fun _ =>
    Program.Only.bind_except (call_only (hlist _)) fun _ =>
      Program.Only.bind_except (pure_only _) fun _ => pure_only (.ok _)

theorem getManaged_only (hget : K .get) (hlist : ∀ t, K (.list t)) :
    (getManaged (R := R)).run.Only K :=
  Program.Only.bind_except (call_only hget) fun row => hydrateManaged_only hlist row

theorem updateIfCurrent_only {status : OfferStatus} {revision : Option ℕ} {write : OfferWrite R}
    (h : K (.update status revision write)) :
    (updateIfCurrent status revision write).run.Only K :=
  Program.Only.bind_except (call_only h) fun _ => pure_only (.ok _)

end Only

section Behind

variable {creates : Bool}

theorem replaceOne_behind (t : ChildTable) (existing : List (ChildRow (R.Columns t)))
    (draft : R.Draft t) : (replaceOne t existing draft).run.Only (Behind creates) := by
  refine Program.Only.bind_except (pure_only _) fun columns => ?_
  split
  · exact call_only trivial
  · exact Program.Only.bind_except (call_only trivial) fun id => call_only trivial

theorem replaceLoop_behind (t : ChildTable) (existing : List (ChildRow (R.Columns t)))
    (seen : List String) (drafts : List (R.Draft t)) :
    (replaceLoop t existing seen drafts).run.Only (Behind creates) := by
  induction drafts generalizing existing seen with
  | nil => exact pure_only (.ok existing)
  | cons draft drafts ih =>
    unfold replaceLoop
    split
    · exact pure_only (.error _)
    · exact Program.Only.bind_except (replaceOne_behind t existing draft) fun _ => ih _ _

theorem deleteRows_behind (t : ChildTable) (rows : List (ChildRow (R.Columns t))) :
    (deleteRows t rows).run.Only (Behind creates) := by
  induction rows with
  | nil => exact pure_only (.ok ())
  | cons row rows ih => exact Program.Only.bind_except (call_only trivial) fun _ => ih

theorem replaceForOffer_behind (t : ChildTable) (definition : R.Definition) :
    (replaceForOffer t definition).run.Only (Behind creates) :=
  Program.Only.bind_except (call_only trivial) fun _ =>
    Program.Only.bind_except (replaceLoop_behind t _ _ _) fun _ => deleteRows_behind t _

theorem logged_behind {p : OfferProgram R Unit} (hp : p.run.Only (Behind creates)) :
    (logged p).run.Only (Behind creates) := Program.Only.bind hp fun _ => trivial

theorem cleanupNew_behind : (cleanupNew (R := R)).run.Only (Behind true) :=
  have hdelete : ∀ t, (deleteForOffer (R := R) t).run.Only (Behind true) := fun t =>
    Program.Only.bind_except (call_only trivial) fun _ => deleteRows_behind t _
  Program.Only.bind_except (logged_behind (hdelete _)) fun _ =>
    Program.Only.bind_except (logged_behind (hdelete _)) fun _ =>
      logged_behind (call_only rfl)

/-- Settle the fence and answer with the offer. -/
theorem settle_behind (revision : ℕ) :
    (do if ← updateIfCurrent .draft (some revision) .settle then
          getManaged
        else
          throw concurrentTransition : OfferProgram R (ManagedOffer R)).run.Only
      (Behind creates) := by
  refine Program.Only.bind_except (updateIfCurrent_only trivial) fun settled => ?_
  cases settled with
  | true => exact getManaged_only trivial fun _ => trivial
  | false => exact pure_only (.error _)

end Behind

section Safety

variable [DecidableEq ι] {calls : OfferCalls R ι} {start : OfferStore R} {i : ι}

/-- What each call of a run may issue. -/
abbrev issuing (calls : OfferCalls R ι) : Discipline ι (OfferStore R) (OfferAnswer (R := R)) :=
  script fun i => Issues (calls.request i)

theorem Opened.cons {own : OfferHistory R ι} (h : Opened own) (m : OfferMoment R ι) :
    Opened (m :: own) :=
  h.imp fun _ hm => ⟨List.mem_cons_of_mem _ hm.1, hm.2⟩

private theorem safe_done {α : Type} {a : α} {past : OfferHistory R ι} :
    (issuing calls).Safe perform start i (.done a) past fun _ _ => True :=
  Safe.done (Stable.true i) trivial

/-- A call that has opened the fence may finish its work behind it. -/
private theorem safe_behind {α : Type} {p : Program (OfferCall R) OfferAnswer α} (creates : Bool)
    {past : OfferHistory R ι} (hcreates : creates → (calls.request i).creates)
    (hp : p.Only (Behind creates)) (hopened : Opened (past.own i)) :
    (issuing calls).Safe perform start i p past fun _ _ => True := by
  refine (Safe.script_only Opened hp hopened ?_ fun own _ _ _ h _ => h.cons _).mono
    fun _ _ _ => trivial
  intro own c hown hc
  cases c with
  | newId | get | list => trivial
  | update status revision write =>
    cases write with
    | settle => trivial
    | raise | publish | archive => cases hc
  | delete => exact ⟨hcreates hc, hown⟩
  | createChild | updateChild | deleteChild => exact hown
  | getProduct | create => cases hc

private theorem safe_call {α : Type} {c : OfferCall R} {f : OfferReply c → OfferProgram R α}
    {past : OfferHistory R ι} (P : OfferHistory R ι → Prop) (hP : P (past.own i))
    (hissues : ∀ own, P own → Issues (calls.request i) own c)
    (hnext : ∀ past failure s reply, P (History.own i past) →
      (perform failure c s).1 = .ok reply →
      (issuing calls).Safe perform start i (f reply).run
        (Pool.momentOf perform i failure c s :: past) fun _ _ => True) :
    (issuing calls).Safe perform start i (call c >>= f).run past fun _ _ => True := by
  refine Safe.script_call P hP hissues fun past failure s hpast => ?_
  cases hanswer : (perform failure c s).1 with
  | error e => exact safe_done
  | ok reply => exact hnext past failure s reply hpast hanswer

private theorem safe_update {α : Type} {status : OfferStatus} {revision : Option ℕ}
    {write : OfferWrite R} {f : Bool → OfferProgram R α} {past : OfferHistory R ι}
    (P : OfferHistory R ι → Prop) (hP : P (past.own i))
    (hissues : ∀ own, P own → Issues (calls.request i) own (.update status revision write))
    (hnext : ∀ past failure s (rows : ℕ),
      (perform failure (.update status revision write) s).1 = .ok rows →
      (issuing calls).Safe perform start i (f (rows == 1)).run
        (Pool.momentOf perform i failure (.update status revision write) s :: past)
        fun _ _ => True) :
    (issuing calls).Safe perform start i (updateIfCurrent status revision write >>= f).run past
      fun _ _ => True := by
  refine Safe.script_call P hP hissues fun past failure s _ => ?_
  cases hanswer : (perform failure (.update status revision write) s).1 with
  | error e => exact safe_done
  | ok rows => exact hnext past failure s rows hanswer

private theorem safe_pure {α β : Type} {x : Except WaferError α} {f : α → OfferProgram R β}
    {past : OfferHistory R ι}
    (hnext : ∀ a, x = .ok a →
      (issuing calls).Safe perform start i (f a).run past fun _ _ => True) :
    (issuing calls).Safe perform start i (ExceptT.mk (pure x) >>= f).run past
      fun _ _ => True := by
  cases x with
  | error e => exact safe_done
  | ok a => exact hnext a rfl

theorem create_safe (productId : String) (definition : R.Definition)
    (hrequest : calls.request i = .create productId definition) {past : OfferHistory R ι}
    (hown : past.own i = []) :
    (issuing calls).Safe perform start i (create productId definition).run past
      fun _ _ => True := by
  have hcreates : (calls.request i).creates := by rw [hrequest]; rfl
  refine safe_call (fun own => own = []) hown (fun _ _ => trivial) ?_
  intro past failure s reply hpast _
  refine safe_pure fun terms _ => ?_
  refine safe_call (fun own => ¬ Opened own) ?_ (fun own h => ⟨hcreates, h⟩) ?_
  · rw [Pool.own_momentOf, hpast]
    rintro ⟨m, hm, hopens⟩
    rw [List.mem_singleton.mp hm] at hopens
    cases hopens
  clear past hpast
  intro past failure s reply _ hreply
  have hreplace : ∀ t, (orCleanup (replaceForOffer t definition)).run.Only (Behind true) :=
    fun t => Program.Only.tryCatch_except (replaceForOffer_behind t definition) fun e =>
      Program.Only.bind_except cleanupNew_behind fun _ => pure_only (.error e)
  refine safe_behind true (fun _ => hcreates)
    (Program.Only.bind_except (hreplace _) fun _ =>
      Program.Only.bind_except (hreplace _) fun _ => settle_behind 0) ?_
  rw [Pool.own_momentOf]
  refine ⟨_, List.mem_cons_self, ?_⟩
  simp only [opens, Pool.momentOf, hreply, opensOf]

theorem updateDraft_safe (productId : String) (definition : R.Definition)
    (hrequest : calls.request i = .updateDraft productId definition) {past : OfferHistory R ι} :
    (issuing calls).Safe perform start i (updateDraft productId definition).run past
      fun _ _ => True := by
  refine safe_call (fun _ => True) trivial (fun _ _ => trivial) ?_
  intro past failure s row _ _
  split
  · exact safe_done
  split
  · exact safe_done
  split
  · exact safe_done
  refine safe_pure fun terms _ => ?_
  split
  · exact safe_done
  refine safe_update (fun _ => True) trivial
    (fun _ _ => ⟨by rw [hrequest]; rfl, rfl, _, rfl, rfl⟩) ?_
  intro past failure s rows hrows
  split
  · rename_i hlanded
    refine safe_behind false nofun
      (Program.Only.bind_except (replaceForOffer_behind _ definition) fun _ =>
        Program.Only.bind_except (replaceForOffer_behind _ definition) fun _ =>
          settle_behind _) ?_
    rw [Pool.own_momentOf]
    refine ⟨_, List.mem_cons_self, ?_⟩
    simpa only [opens, Pool.momentOf, hrows, opensOf] using hlanded
  · refine safe_call (fun _ => True) trivial (fun _ _ => trivial) ?_
    intro past failure s current _ _
    split <;> exact safe_done

/-- A call that only reads or archives may do so at any time. -/
private theorem safe_reads {α : Type} {p : Program (OfferCall R) OfferAnswer α}
    {past : OfferHistory R ι} (hp : p.Only Reads) :
    (issuing calls).Safe perform start i p past fun _ _ => True := by
  refine (Safe.script_only (fun _ => True) hp trivial ?_ fun _ _ _ _ _ _ => trivial).mono
    fun _ _ _ => trivial
  intro own c _ hc
  cases c with
  | get | list => trivial
  | update status revision write =>
    cases write with
    | archive => trivial
    | raise | settle | publish => cases hc
  | getProduct | newId | create | delete | createChild | updateChild | deleteChild => cases hc

theorem archive_safe (productId : String) {past : OfferHistory R ι} :
    (issuing calls).Safe perform start i (archive (R := R) productId).run past
      fun _ _ => True := by
  refine safe_reads (Program.Only.bind_except (call_only trivial) fun row => ?_)
  split
  · exact pure_only (.error _)
  refine Program.Only.bind_except (hydrateManaged_only (fun _ => trivial) row) fun managed => ?_
  split
  · exact pure_only (.ok _)
  refine Program.Only.bind_except (updateIfCurrent_only trivial) fun archived => ?_
  split
  · exact getManaged_only trivial fun _ => trivial
  refine Program.Only.bind_except (getManaged_only trivial fun _ => trivial) fun managed => ?_
  split
  · exact pure_only (.ok _)
  · exact pure_only (.error _)

theorem publish_safe (productId : String) {past : OfferHistory R ι} (hown : past.own i = []) :
    (issuing calls).Safe perform start i (publish (R := R) productId).run past
      fun _ _ => True := by
  refine safe_call (fun own => own = []) hown (fun _ _ => trivial) ?_
  intro past failure s row hpast hrow
  split
  · exact safe_done
  simp only [hydrateManaged, bind_assoc, pure_bind]
  refine safe_call (fun own => ∃ readRow, own = [readRow] ∧ rowRead readRow = some row) ?_
    (fun _ _ => trivial) ?_
  · rw [Pool.own_momentOf, hpast]
    exact ⟨_, rfl, by simp only [rowRead, Pool.momentOf, hrow, rowReadOf]⟩
  clear past hpast
  intro past failure s variableRows hpast hvariables
  refine safe_call (fun own => ∃ readVariables readRow, own = [readVariables, readRow] ∧
    rowRead readRow = some row ∧ listed .offerVariables readVariables = some variableRows) ?_
    (fun _ _ => trivial) ?_
  · obtain ⟨readRow, hown, hread⟩ := hpast
    rw [Pool.own_momentOf, hown]
    exact ⟨_, _, rfl, hread, by simp [listed, Pool.momentOf, hvariables, listedOf]⟩
  clear past hpast
  intro past failure s componentRows hpast hcomponents
  refine safe_pure fun offer hoffer => ?_
  split
  · exact safe_done
  · exact safe_done
  rename_i hstatus
  split
  · exact safe_done
  rename_i hupdating
  refine safe_pure fun _ hvalid => ?_
  refine safe_update (fun own => Reviewed own row.draftRevision) ?_
    (fun own h => ⟨rfl, _, rfl, h⟩) ?_
  · obtain ⟨readVariables, readRow, hown, hread, hlisted⟩ := hpast
    rw [Pool.own_momentOf, hown]
    exact ⟨readRow, readVariables, _, row, variableRows, componentRows, offer, rfl, hread, hlisted,
      by simp [listed, Pool.momentOf, hcomponents, listedOf], hstatus, by simpa using hupdating,
      rfl, hoffer, hvalid⟩
  clear hpast
  intro past failure s rows _
  refine safe_reads ?_
  split
  · exact getManaged_only trivial fun _ => trivial
  refine Program.Only.bind_except (getManaged_only trivial fun _ => trivial) fun managed => ?_
  split
  · exact pure_only (.ok _)
  · exact pure_only (.error _)

theorem program_safe (i : ι) :
    (issuing calls).Safe perform start i (calls.request i).program.run [] fun _ _ => True := by
  cases hrequest : calls.request i with
  | create productId definition => exact create_safe productId definition hrequest rfl
  | updateDraft productId definition => exact updateDraft_safe productId definition hrequest
  | publish productId => exact publish_safe productId rfl
  | archive productId => exact archive_safe productId

end Safety

/-- A moment of a run: it happened at the store the moments before it had left, and it is one
that its call may issue. -/
abbrev Genuine [DecidableEq ι] (calls : OfferCalls R ι) (start : OfferStore R)
    (past : OfferHistory R ι) (m : OfferMoment R ι) : Prop :=
  Scripted perform start (fun i => Issues (calls.request i)) past m

/-- Every moment of every run is genuine. -/
theorem serve_genuine [DecidableEq ι] (calls : OfferCalls R ι) (start : OfferStore R)
    (schedule : List (ι × Option WaferError)) :
    Along (Genuine calls start) (serve calls start schedule).history :=
  exec_scripted program_safe schedule

end Offers

end Products
