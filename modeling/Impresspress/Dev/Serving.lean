import Impresspress.Dev.Boot
import Impresspress.Dev.Locks

/-!
# One serving generation

The commit of an activation is three writes: the new row is active, the old one is superseded, the
journal names the new one. Between them the status column and the journal disagree, and a boot
convergence that finds them so has to finish what was begun.

## Main definitions

* `Dev.Agrees`: the active rows are exactly the generation that the journal names.
* `Dev.Interrupted`: a commit was begun for the generation that the journal desires.
* `Dev.Unbroken`: what may happen while the ledger and the journal disagree.
* `Dev.serving`: what the programs of an instance promise each other.

## Main results

* `Dev.serving_sound`: what a program counts on is what the others promise.
* `Dev.leads_advance`, `Dev.leads_setStatus`, `Dev.leads_writeState`: what a call leads to.
-/

namespace Dev

open Concurrent Concurrent.Contract Concurrent.Fallible
open Relational (Table)

/-- The status of a generation, if its row is there. -/
def Generations.statusOf (ledger : Generations) (id : ℕ) : Option GenerationStatus :=
  (ledger.get? id).map (·.status)

/-- The active rows are exactly the generation that the journal names. -/
def Agrees (ledger : Generations) (journal : RuntimeState) : Prop :=
  ∀ id, journal.activeGenerationId = some id ↔ ledger.statusOf id = some .active

def DevStore.Serving (s : DevStore) : Prop := Agrees s.generations s.journal

/-- A commit was begun for the generation that the journal desires, and can be finished. -/
def Interrupted (ledger : Generations) (journal : RuntimeState) : Prop :=
  ∃ id row, journal.desiredGenerationId = some id ∧ ledger.get? id = some row ∧
    row.status.survivesRetention = true ∧
    ∀ other, ledger.statusOf other = some .active →
      other = id ∨ journal.activeGenerationId = some other

/-- What a boot convergence finds, whenever the process before it stopped. -/
structure Recoverable (ledger : Generations) (journal : RuntimeState) : Prop where
  readable : ∀ id row, ledger.get? id = some row → row.manifest ≠ none
  apart : ∀ id, journal.desiredGenerationId = some id → journal.activeGenerationId ≠ some id
  state : Agrees ledger journal ∨ Interrupted ledger journal

/-- The calls with which an activation advances. -/
def DevCall.advances : DevCall → Bool
  | .setStatus _ .failed => false
  | .setStatus .. | .writeState _ | .blobExists _ | .artifactIndex | .rebuild _ | .llms
  | .setLlmsPublished _ | .putSite .. | .deleteSite _ | .getBlob _ => true
  | _ => false

/-- The answer finds the content that was asked about. -/
def Found : (c : DevCall) → Reply c → Generations → RuntimeState → Prop
  | .blobExists _, stored, _, _ => stored = true
  | .artifactIndex, stored, ledger, journal =>
    ∀ id row manifest, journal.desiredGenerationId = some id → ledger.get? id = some row →
      row.manifest = some manifest → missingArtifacts manifest.blocks stored = []
  | _, _, _, _ => True

/-- While the ledger and the journal disagree, no activation is begun, no call fails with which one
advances, and none of its content is missing. -/
def Unbroken (c : DevCall) (s : DevStore) (answer : Outcome ActivationError Reply c) : Prop :=
  s.Serving ∨ c ≠ .lock .activation ∧
    (c.advances = true → ∃ reply, answer = .ok reply ∧ Found c reply s.generations s.journal)

/-! ## The ledger and the journal -/

/-- The calls that write the ledger of generations or the journal. -/
def DevCall.writesLedger : DevCall → Bool
  | .insertGeneration _ | .setStatus .. | .deleteMany _ | .writeState _ => true
  | _ => false

theorem ledger_of_perform {c : DevCall} (hc : c.writesLedger = false) (chance : Chance)
    (s : DevStore) : (perform chance c s).2.generations = s.generations ∧
      (perform chance c s).2.journal = s.journal := by
  unfold perform
  dsimp only
  split
  · exact ⟨rfl, rfl⟩
  cases c with
  | insertGeneration _ | setStatus _ _ | deleteMany _ | writeState _ => cases hc
  | _ =>
    simp only [answer]
    first
        | exact ⟨trivial, trivial⟩
        | split <;> exact ⟨rfl, rfl⟩

/-- A call that fails leaves the ledger and the journal as they were. -/
theorem ledger_of_error {c : DevCall} {chance : Chance} {s : DevStore} {e : ActivationError}
    (h : (perform chance c s).1 = .error e) :
    (perform chance c s).2.generations = s.generations ∧
      (perform chance c s).2.journal = s.journal := by
  have hstore : (perform chance c s).2 = s.after chance.elapsed := perform_error (Prod.ext h rfl)
  rw [hstore]
  exact ⟨rfl, rfl⟩

/-- Rows that retention does not keep may be gone, and nothing else changed. -/
structure Thinned (ledger ledger' : Generations) : Prop where
  kept : ∀ id row, ledger.get? id = some row → row.status.survivesRetention = true →
    ledger'.get? id = some row
  old : ∀ id row, ledger'.get? id = some row → ledger.get? id = some row

theorem Thinned.refl (ledger : Generations) : Thinned ledger ledger :=
  ⟨fun _ _ h _ => h, fun _ _ h => h⟩

theorem Thinned.trans {a b c : Generations} (h : Thinned a b) (h' : Thinned b c) : Thinned a c :=
  ⟨fun id row hrow hsurvives => h'.kept id row (h.kept id row hrow hsurvives) hsurvives,
    fun id row hrow => h.old id row (h'.old id row hrow)⟩

theorem Thinned.statusOf_active {ledger ledger' : Generations} (h : Thinned ledger ledger')
    (id : ℕ) : ledger'.statusOf id = some .active ↔ ledger.statusOf id = some .active := by
  unfold Generations.statusOf
  constructor
  · intro hstatus
    obtain ⟨row, hrow, hactive⟩ := Option.map_eq_some_iff.mp hstatus
    rw [h.old id row hrow, Option.map_some, hactive]
  · intro hstatus
    obtain ⟨row, hrow, hactive⟩ := Option.map_eq_some_iff.mp hstatus
    rw [h.kept id row hrow (by rw [hactive]; rfl), Option.map_some, hactive]

theorem Agrees.thinned {ledger ledger' : Generations} {journal : RuntimeState}
    (h : Agrees ledger journal) (hthinned : Thinned ledger ledger') : Agrees ledger' journal :=
  fun id => (h id).trans (hthinned.statusOf_active id).symm

theorem Recoverable.thinned {ledger ledger' : Generations} {journal : RuntimeState}
    (h : Recoverable ledger journal) (hthinned : Thinned ledger ledger') :
    Recoverable ledger' journal where
  readable := fun id row hrow => h.readable id row (hthinned.old id row hrow)
  apart := h.apart
  state := h.state.imp (fun hagrees => hagrees.thinned hthinned) <| by
    rintro ⟨id, row, hdesired, hrow, hsurvives, hothers⟩
    exact ⟨id, row, hdesired, hthinned.kept id row hrow hsurvives, hsurvives,
      fun other hother => hothers other ((hthinned.statusOf_active other).mp hother)⟩

theorem thinned_deleteMany {ledger : Generations} {ids : List ℕ}
    (h : ∀ id ∈ ids, ∀ row, ledger.get? id = some row → row.status.survivesRetention = false) :
    Thinned ledger (ledger.deleteMany ids) where
  kept := fun id row hrow hsurvives => by
    rw [get?_deleteMany, if_neg, hrow]
    intro hid
    rw [h id hid row hrow] at hsurvives
    cases hsurvives
  old := fun id row hrow => by
    rw [get?_deleteMany] at hrow
    split at hrow
    · cases hrow
    · exact hrow

theorem statusOf_setStatus {ledger ledger' : Generations} {id : ℕ} {status : GenerationStatus}
    (h : ledger.setStatus id status = some ledger') (k : ℕ) :
    ledger'.statusOf k = if k = id then some status else ledger.statusOf k := by
  unfold Generations.statusOf
  rw [get?_setStatus h]
  obtain ⟨row, hrow⟩ := get?_of_setStatus h
  split
  · rw [hrow]
    rfl
  · rfl

theorem readable_setStatus {ledger ledger' : Generations} {id : ℕ} {status : GenerationStatus}
    (h : ∀ id row, ledger.get? id = some row → row.manifest ≠ none)
    (hset : ledger.setStatus id status = some ledger') (k : ℕ) (row : GenerationRow)
    (hrow : ledger'.get? k = some row) : row.manifest ≠ none := by
  rw [get?_setStatus hset] at hrow
  split at hrow
  · obtain ⟨old, hold, rfl⟩ := Option.map_eq_some_iff.mp hrow
    exact h _ old hold
  · exact h k row hrow

/-! ## The contract -/

/-- The calls that only the driver of the activations makes. -/
def DevCall.drives : DevCall → Bool
  | .insertGeneration _ | .setStatus .. | .writeState _ => true
  | _ => false

def DevCall.prunes : DevCall → Bool
  | .deleteMany _ => true
  | _ => false

/-- What is promised of a call: no row is brought back that retention may have listed for
deletion, only such rows are deleted, and the queue is released in agreement. -/
def Promised (alone : Bool) : DevCall → DevStore → Prop
  | .setStatus id status, s => alone = false → status.survivesRetention = true →
      ∀ row, s.generations.get? id = some row → row.status.survivesRetention = true
  | .deleteMany ids, s => ∀ id ∈ ids, ∀ row, s.generations.get? id = some row →
      row.status.survivesRetention = false
  | .unlock .activation, s => s.Serving
  | _, _ => True

/-- What the others leave alone while a program holds the queue, or runs maintenance. -/
structure Undisturbed (mine : Lock → Bool) (s s' : DevStore) : Prop where
  journal : mine .activation = true → s'.journal = s.journal
  thinned : mine .activation = true → Thinned s.generations s'.generations
  settled : mine .maintenance = true → ∀ id row, s.generations.get? id = some row →
    row.status.survivesRetention = false →
    ∃ row', s'.generations.get? id = some row' ∧ row'.status.survivesRetention = false

theorem Undisturbed.of_ledger {mine : Lock → Bool} {s s' : DevStore}
    (hgenerations : s'.generations = s.generations) (hjournal : s'.journal = s.journal) :
    Undisturbed mine s s' where
  journal := fun _ => hjournal
  thinned := fun _ => hgenerations ▸ Thinned.refl _
  settled := fun _ id row hrow hsettled => ⟨row, hgenerations ▸ hrow, hsettled⟩

theorem Undisturbed.trans {mine : Lock → Bool} {s s' s'' : DevStore} (h : Undisturbed mine s s')
    (h' : Undisturbed mine s' s'') : Undisturbed mine s s'' where
  journal := fun hmine => (h'.journal hmine).trans (h.journal hmine)
  thinned := fun hmine => (h.thinned hmine).trans (h'.thinned hmine)
  settled := fun hmine id row hrow hsettled =>
    let ⟨row', hrow', hsettled'⟩ := h.settled hmine id row hrow hsettled
    h'.settled hmine id row' hrow' hsettled'

/-- What the programs of an instance promise each other; `alone` while it boots. -/
def serving (alone : Bool) (settled : Prop) : Contract sandboxLocks where
  needs := fun c l => alone = false ∧
    (l = .activation ∧ c.drives = true ∨ l = .maintenance ∧ c.prunes = true)
  promise := Promised alone
  rely := fun mine s s' => if alone = true then s' = s else Undisturbed mine s s'
  keeps := fun s => Recoverable s.generations s.journal ∧
    (alone = false → settled → s.held .activation = false → s.Serving)
  admits := Unbroken
  refl := fun mine s => by
    split
    · rfl
    · exact .of_ledger rfl rfl
  trans := fun mine s s' s'' h h' => by
    split at h <;> rename_i halone
    · rw [if_pos halone] at h' ⊢
      exact h'.trans h
    · rw [if_neg halone] at h' ⊢
      exact h.trans h'

theorem serving_sound (settled : Prop) : (serving false settled).Sound := by
  intro mine chance c s hneeds _ hpromise _ _ _
  change Undisturbed mine s (perform chance c s).2
  have hactivation : c.drives = true → mine .activation = false := fun hc =>
    hneeds _ ⟨rfl, .inl ⟨rfl, hc⟩⟩
  cases hanswer : (perform chance c s).1 with
  | error e => exact .of_ledger (ledger_of_error hanswer).1 (ledger_of_error hanswer).2
  | ok reply =>
    have hperform : answer chance c (s.after chance.elapsed) =
        (.ok reply, (perform chance c s).2) := answer_of_perform (Prod.ext hanswer rfl)
    cases c with
    | insertGeneration new =>
      simp only [answer] at hperform
      split at hperform
      · rename_i generations hinsert
        have hs' := (Prod.ext_iff.mp hperform).2
        refine ⟨fun h => ?_, fun h => ?_, fun _ id row hrow hsettled => ⟨row, ?_, hsettled⟩⟩
        · rw [hactivation rfl] at h
          cases h
        · rw [hactivation rfl] at h
          cases h
        · rw [← hs']
          change generations.get? id = some row
          rw [get?_insertRow hinsert, if_neg, ← hrow]
          · rfl
          · intro hid
            have hnone := Table.get?_of_insert hinsert
            change s.generations.get? new.id = none at hnone
            have hid' : id = new.id := hid
            rw [hid', hnone] at hrow
            cases hrow
      · cases (Prod.ext_iff.mp hperform).1
    | setStatus id status =>
      simp only [answer] at hperform
      split at hperform
      · rename_i generations hset
        have hs' := (Prod.ext_iff.mp hperform).2
        refine ⟨fun h => ?_, fun h => ?_, fun _ other row hrow hsettled => ?_⟩
        · rw [hactivation rfl] at h
          cases h
        · rw [hactivation rfl] at h
          cases h
        · rw [← hs']
          change ∃ row', generations.get? other = some row' ∧ _
          rw [get?_setStatus hset]
          by_cases hid : other = id
          · subst hid
            refine ⟨{ row with status }, ?_, ?_⟩
            · rw [if_pos rfl]
              exact congrArg (Option.map _) hrow
            · cases hstatus : status.survivesRetention with
              | false => rfl
              | true =>
                have hsurvives := hpromise rfl hstatus row hrow
                rw [hsettled] at hsurvives
                cases hsurvives
          · rw [if_neg hid]
            exact ⟨row, hrow, hsettled⟩
      · cases (Prod.ext_iff.mp hperform).1
    | deleteMany ids =>
      have hs' : { s.after chance.elapsed with generations := s.generations.deleteMany ids } =
          (perform chance (.deleteMany ids) s).2 := (Prod.ext_iff.mp hperform).2
      rw [← hs']
      refine ⟨fun _ => rfl, fun _ => thinned_deleteMany hpromise, fun h => ?_⟩
      rw [hneeds .maintenance ⟨rfl, .inr ⟨rfl, rfl⟩⟩] at h
      cases h
    | writeState state =>
      have hs' : { s.after chance.elapsed with journal := state } =
          (perform chance (.writeState state) s).2 := (Prod.ext_iff.mp hperform).2
      refine ⟨fun h => ?_, fun h => ?_, fun _ id row hrow hsettled => ⟨row, ?_, hsettled⟩⟩
      · rw [hactivation rfl] at h
        cases h
      · rw [hactivation rfl] at h
        cases h
      · rw [← hs']
        exact hrow
    | _ => exact .of_ledger (ledger_of_perform rfl chance s).1 (ledger_of_perform rfl chance s).2

/-! ## Rules of the contract -/

/-- An assertion about the ledger and the journal. -/
abbrev LedgerAssertion := Generations → RuntimeState → Prop

namespace LedgerAssertion

def On (P : LedgerAssertion) (s : DevStore) : Prop := P s.generations s.journal

/-- The assertion survives the loss of rows that retention does not keep. -/
def Thinnable (P : LedgerAssertion) : Prop :=
  ∀ ledger ledger' journal, Thinned ledger ledger' → P ledger journal → P ledger' journal

def and (P P' : LedgerAssertion) : LedgerAssertion :=
  fun ledger journal => P ledger journal ∧ P' ledger journal

theorem Thinnable.and {P P' : LedgerAssertion} (h : P.Thinnable) (h' : P'.Thinnable) :
    (P.and P').Thinnable :=
  fun ledger ledger' journal hthinned hs =>
    ⟨h ledger ledger' journal hthinned hs.1, h' ledger ledger' journal hthinned hs.2⟩

end LedgerAssertion

open LedgerAssertion

theorem thinnable_agrees : Thinnable Agrees :=
  fun _ _ _ hthinned h => h.thinned hthinned

section Rules

variable {alone : Bool} {settled : Prop} {mine : Lock → Bool} {P : LedgerAssertion}

theorem stable_on (hmine : alone = false → mine .activation = true) (hP : P.Thinnable) :
    (serving alone settled).Stable mine P.On := by
  intro s s' hs hat
  have hrely : if alone = true then s' = s else Undisturbed mine s s' := hat.rely
  split at hrely
  · rwa [hrely]
  · rename_i halone
    have hmine := hmine (by simpa using halone)
    unfold On at hs ⊢
    rw [hrely.journal hmine]
    exact hP _ _ _ (hrely.thinned hmine) hs

/-- A program that holds the queue, or is alone, may drop the promise that the queue's release is
in agreement. -/
theorem keeps_of_recoverable (hmine : alone = false → mine .activation = true) {s : DevStore}
    (hheld : ∀ l, mine l = true → s.held l = true) {s' : DevStore} (hs' : s'.held = s.held)
    (h : Recoverable s'.generations s'.journal) : (serving alone settled).keeps s' := by
  refine ⟨h, fun halone _ hfree => ?_⟩
  rw [hs', hheld _ (hmine halone)] at hfree
  cases hfree

theorem keeps_of_ledger {s s' : DevStore} (hkeeps : (serving alone settled).keeps s)
    (hgenerations : s'.generations = s.generations) (hjournal : s'.journal = s.journal)
    (hheld : s'.held = s.held) : (serving alone settled).keeps s' := by
  change Recoverable _ _ ∧ (_ → _ → _ → Agrees _ _) at hkeeps ⊢
  rw [hgenerations, hjournal, hheld]
  exact hkeeps

theorem owned_of_quiet {c : DevCall} {s : DevStore} (hc : c.writesLedger = false)
    (heffect : c.lockEffect = none) : (serving alone settled).Owned mine c s where
  needs := fun l hneeds => by
    cases c with
    | insertGeneration _ | setStatus _ _ | deleteMany _ | writeState _ => cases hc
    | _ => rcases hneeds.2 with ⟨-, h⟩ | ⟨-, h⟩ <;> cases h
  releases := fun _ l h => by
    change c.lockEffect = _ at h
    rw [heffect] at h
    cases h
  promise := by
    cases c with
    | insertGeneration _ | setStatus _ _ | deleteMany _ | writeState _ => cases hc
    | unlock _ => cases heffect
    | _ => trivial

/-- A call that writes neither the ledger nor the journal; a failed one with which an activation
advances was made in agreement. -/
theorem calls_quiet {c : DevCall} (hc : c.writesLedger = false) (heffect : c.lockEffect = none) :
    (serving alone settled).Calls mine P.On c fun outcome s' => P.On s' ∧
      (c.advances = true → s'.Serving ∨
        ∃ reply, outcome = .ok reply ∧ On (Found c reply) s') := by
  intro s hknown
  refine ⟨owned_of_quiet hc heffect, fun chance hadmits _ => ?_⟩
  obtain ⟨hgenerations, hjournal⟩ := ledger_of_perform hc chance s
  refine ⟨keeps_of_ledger hknown.keeps hgenerations hjournal (held_perform_of_none heffect _ _),
    ?_, fun hadvances => ?_⟩
  · unfold On
    rw [hgenerations, hjournal]
    exact hknown.assertion
  · refine hadmits.imp (fun hserving => ?_) fun hwhole => ?_
    · unfold DevStore.Serving
      rw [hgenerations, hjournal]
      exact hserving
    · obtain ⟨reply, hok, hfound⟩ := hwhole.2 hadvances
      refine ⟨reply, hok, ?_⟩
      unfold On
      rw [hgenerations, hjournal]
      exact hfound

/-- A call that is made to look. -/
theorem leads_look {c : DevCall} (hc : c.writesLedger = false) (heffect : c.lockEffect = none)
    (hstable : (serving alone settled).Stable mine P.On) :
    (serving alone settled).Leads mine P.On (call c) (fun _ => P.On) fun _ => P.On := by
  refine leads_call (fun _ => heffect) hstable (fun _ => hstable) (fun _ => hstable) fun s hknown => ?_
  obtain ⟨howned, hrest⟩ := calls_quiet hc heffect s hknown
  refine ⟨howned, fun chance hadmits hfree => ?_⟩
  obtain ⟨hkeeps, hP, -⟩ := hrest chance hadmits hfree
  refine ⟨hkeeps, ?_⟩
  cases (perform chance c s).1 with
  | ok _ => exact hP
  | error _ => exact hP

theorem thinnable_found (c : DevCall) (reply : Reply c) :
    Thinnable fun ledger journal => Agrees ledger journal ∨ Found c reply ledger journal := by
  intro ledger ledger' journal hthinned h
  refine h.imp (fun hagrees => hagrees.thinned hthinned) fun hfound => ?_
  cases c with
  | artifactIndex =>
    exact fun id row manifest hdesired hrow => hfound id row manifest hdesired
      (hthinned.old id row hrow)
  | _ => exact hfound

/-- A call with which an activation advances: it fails in agreement only. -/
theorem leads_advance {c : DevCall} (hmine : alone = false → mine .activation = true)
    (hP : (serving alone settled).Stable mine P.On) (hc : c.writesLedger = false)
    (heffect : c.lockEffect = none) (hadvances : c.advances = true) :
    (serving alone settled).Leads mine P.On (call c)
      (fun reply => (P.and fun ledger journal =>
        Agrees ledger journal ∨ Found c reply ledger journal).On)
      fun _ => (P.and Agrees).On := by
  refine leads_call (fun _ => heffect) hP (fun reply => hP.and (stable_on hmine (thinnable_found c reply)))
    (fun _ => hP.and (stable_on hmine thinnable_agrees)) fun s hknown => ?_
  obtain ⟨howned, hrest⟩ := calls_quiet hc heffect s hknown
  refine ⟨howned, fun chance hadmits hfree => ?_⟩
  obtain ⟨hkeeps, hs', hanswer⟩ := hrest chance hadmits hfree
  refine ⟨hkeeps, ?_⟩
  cases hreply : (perform chance c s).1 with
  | ok reply =>
    refine ⟨hs', (hanswer hadvances).imp_right ?_⟩
    rintro ⟨reply', hok, hfound'⟩
    rw [hreply] at hok
    cases hok
    exact hfound'
  | error e =>
    refine ⟨hs', (hanswer hadvances).resolve_right ?_⟩
    rintro ⟨reply', hok, -⟩
    rw [hreply] at hok
    cases hok

/-- A program of such calls that stops at its first failed one. -/
theorem leads_advancing {α : Type} {K : DevCall → Prop} {p : Task α}
    (hmine : alone = false → mine .activation = true)
    (hP : (serving alone settled).Stable mine P.On) (hp : Prompt K p.run)
    (hK : ∀ c, K c → c.writesLedger = false ∧ c.lockEffect = none ∧ c.advances = true) :
    (serving alone settled).Leads mine P.On p (fun _ => P.On) fun _ => (P.and Agrees).On := by
  refine leads_prompt hp hP (fun _ => hP.and (stable_on hmine thinnable_agrees)) fun c hc => ?_
  obtain ⟨hledger, heffect, hadvances⟩ := hK c hc
  refine ⟨fun _ => heffect, fun s hknown => ?_⟩
  obtain ⟨howned, hrest⟩ := calls_quiet hledger heffect s hknown
  refine ⟨howned, fun chance hadmits hfree => ?_⟩
  obtain ⟨hkeeps, hs', hanswer⟩ := hrest chance hadmits hfree
  refine ⟨hkeeps, ?_⟩
  cases hreply : (perform chance c s).1 with
  | ok reply => exact hs'
  | error e =>
    refine ⟨hs', (hanswer hadvances).resolve_right ?_⟩
    rintro ⟨reply', hok, -⟩
    rw [hreply] at hok
    cases hok

/-- A program that only looks, or writes what is no part of the ledger. -/
theorem leads_quiet {α : Type} {K : DevCall → Prop} {p : Task α}
    (hstable : (serving alone settled).Stable mine P.On) (hp : p.run.Only K)
    (hK : ∀ c, K c → c.writesLedger = false ∧ c.lockEffect = none) :
    (serving alone settled).Leads mine P.On p (fun _ => P.On) fun _ => P.On := by
  refine leads_only hp hstable fun c hc => ⟨fun _ => (hK c hc).2, fun s hknown => ?_⟩
  obtain ⟨howned, hrest⟩ := calls_quiet (hK c hc).1 (hK c hc).2 s hknown
  refine ⟨howned, fun chance hadmits hfree => ?_⟩
  obtain ⟨hkeeps, hP, -⟩ := hrest chance hadmits hfree
  exact ⟨hkeeps, hP⟩

theorem owned_of_drives {c : DevCall} {s : DevStore} (hmine : alone = false → mine .activation = true)
    (hc : c.drives = true) (hpromise : Promised alone c s) :
    (serving alone settled).Owned mine c s where
  needs := fun l hneeds => by
    rcases hneeds.2 with ⟨rfl, -⟩ | ⟨-, h⟩
    · exact hmine hneeds.1
    · cases c <;> first | (cases h; done) | (cases hc; done)
  releases := fun _ l h => by
    change c.lockEffect = _ at h
    cases c <;> first | (cases h; done) | (cases hc; done)
  promise := hpromise

/-- A status write. -/
theorem leads_setStatus {M : LedgerAssertion} {id : ℕ} {status : GenerationStatus}
    (hmine : alone = false → mine .activation = true)
    (hP : (serving alone settled).Stable mine P.On)
    (hM : (serving alone settled).Stable mine M.On)
    (hsurvives : ∀ ledger journal, P ledger journal → alone = false →
      status.survivesRetention = true → ∀ row, ledger.get? id = some row →
        row.status.survivesRetention = true)
    (hstep : ∀ ledger ledger' journal, Recoverable ledger journal → P ledger journal →
      ledger.setStatus id status = some ledger' → Recoverable ledger' journal ∧ M ledger' journal) :
    (serving alone settled).Leads mine P.On (call (.setStatus id status)) (fun _ => M.On)
      fun _ => (P.and fun ledger journal => status ≠ .failed → Agrees ledger journal).On := by
  have hfailed : Thinnable fun ledger journal => status ≠ .failed → Agrees ledger journal :=
    fun _ _ _ hthinned h hstatus => (h hstatus).thinned hthinned
  refine leads_call (fun _ => rfl) hP (fun _ => hM) (fun _ => hP.and (stable_on hmine hfailed))
    fun s hknown => ?_
  refine ⟨owned_of_drives hmine rfl fun halone => hsurvives _ _ hknown.assertion halone,
    fun chance hadmits _ => ?_⟩
  have hheld : (perform chance (.setStatus id status) s).2.held = s.held :=
    held_perform_of_none rfl _ _
  cases hanswer : (perform chance (.setStatus id status) s).1 with
  | error e =>
    obtain ⟨hgenerations, hjournal⟩ := ledger_of_error hanswer
    refine ⟨keeps_of_ledger hknown.keeps hgenerations hjournal hheld, ?_, fun hstatus => ?_⟩
    · rw [hgenerations, hjournal]
      exact hknown.assertion
    · rw [hgenerations, hjournal]
      refine hadmits.resolve_right fun hwhole => ?_
      obtain ⟨reply, hok, -⟩ := hwhole.2 (by cases status <;> first | rfl | exact absurd rfl hstatus)
      rw [hanswer] at hok
      cases hok
  | ok reply =>
    have hperform := answer_of_perform (Prod.ext hanswer rfl)
    simp only [answer] at hperform
    split at hperform
    · rename_i ledger' hset
      have hs' := (Prod.ext_iff.mp hperform).2
      have hgenerations : (perform chance (.setStatus id status) s).2.generations = ledger' := by
        rw [← hs']
      have hjournal : (perform chance (.setStatus id status) s).2.journal = s.journal := by
        rw [← hs']
        rfl
      obtain ⟨hrecoverable, hM'⟩ := hstep _ _ _ hknown.keeps.1 hknown.assertion hset
      refine ⟨keeps_of_recoverable hmine hknown.held hheld ?_, ?_⟩
      · rw [hgenerations, hjournal]
        exact hrecoverable
      · change M _ _
        rw [hgenerations, hjournal]
        exact hM'
    · cases (Prod.ext_iff.mp hperform).1

/-- A journal write. -/
theorem leads_writeState {M : LedgerAssertion} {state : RuntimeState}
    (hmine : alone = false → mine .activation = true)
    (hP : (serving alone settled).Stable mine P.On)
    (hM : (serving alone settled).Stable mine M.On)
    (hstep : ∀ ledger journal, Recoverable ledger journal → P ledger journal →
      Recoverable ledger state ∧ M ledger state) :
    (serving alone settled).Leads mine P.On (call (.writeState state)) (fun _ => M.On)
      fun _ => (P.and Agrees).On := by
  refine leads_call (fun _ => rfl) hP (fun _ => hM) (fun _ => hP.and (stable_on hmine thinnable_agrees))
    fun s hknown => ?_
  refine ⟨owned_of_drives hmine rfl trivial, fun chance hadmits _ => ?_⟩
  have hheld : (perform chance (.writeState state) s).2.held = s.held :=
    held_perform_of_none rfl _ _
  cases hanswer : (perform chance (.writeState state) s).1 with
  | error e =>
    obtain ⟨hgenerations, hjournal⟩ := ledger_of_error hanswer
    refine ⟨keeps_of_ledger hknown.keeps hgenerations hjournal hheld, ?_, ?_⟩
    · rw [hgenerations, hjournal]
      exact hknown.assertion
    · rw [hgenerations, hjournal]
      refine hadmits.resolve_right fun hwhole => ?_
      obtain ⟨reply, hok, -⟩ := hwhole.2 rfl
      rw [hanswer] at hok
      cases hok
  | ok reply =>
    have hperform := answer_of_perform (Prod.ext hanswer rfl)
    have hs' : { s.after chance.elapsed with journal := state } =
        (perform chance (.writeState state) s).2 := (Prod.ext_iff.mp hperform).2
    obtain ⟨hrecoverable, hM'⟩ := hstep _ _ hknown.keeps.1 hknown.assertion
    refine ⟨keeps_of_recoverable hmine hknown.held hheld ?_, ?_⟩
    · rw [← hs']
      exact hrecoverable
    · rw [← hs']
      exact hM'

end Rules

end Dev
