import Mathlib.Data.List.Nodup
import Mathlib.Data.List.Induction
import Impresspress.Dev.Activation

/-!
# The activation queue

One activation runs at a time. A request that finds none running drives the queue; one that comes
in meanwhile is folded into the single pending slot and waits for the driver. A driver may be
dropped at any point: its lease then releases the queue.

## Main definitions

* `Dev.QueueState`: the slot, and whether an activation is in flight.
* `Dev.Requests`: the queue with the leases that are live, and what was sent to whom.
* `Dev.Requests.Answered`: every waiter is accounted for, and one driver runs at a time.

## Main results

* `Dev.answered_iff`: waiters are accounted for as long as no driver is dropped inside a batch.
-/

namespace Dev

namespace ActivationIntent

/-- Whether the intent replaces the pending one: a site-only publish never displaces a richer
one. -/
def supersedes : ActivationIntent → ActivationIntent → Bool
  | siteOnly, siteOnly => true
  | siteOnly, _ => false
  | _, _ => true

end ActivationIntent

/-- What a waiter is told. -/
abbrev ActivationResult := Except ActivationError GenerationRow

/-- A coalesced request: one intent, and the channels of everyone who waits for its outcome. -/
structure Pending where
  cause : GenerationCause
  intent : ActivationIntent
  waiters : List ℕ
  deriving DecidableEq

structure QueueState where
  running : Bool
  pending : Option Pending
  deriving DecidableEq

/-- What became of a request. -/
inductive Admission
  | drive
  | wait
  deriving DecidableEq

namespace QueueState

/-- Fold a request into the pending slot. -/
def fold (pending : Option Pending) (cause : GenerationCause) (intent : ActivationIntent)
    (tx : ℕ) : Pending :=
  match pending with
  | some pending =>
    if intent.supersedes pending.intent then ⟨cause, intent, pending.waiters ++ [tx]⟩
    else { pending with waiters := pending.waiters ++ [tx] }
  | none => ⟨cause, intent, [tx]⟩

/-- Admit one request: it drives, or it waits with the sender `tx`. -/
def admission (queue : QueueState) (cause : GenerationCause) (intent : ActivationIntent) (tx : ℕ) :
    Admission × QueueState :=
  if !queue.running then (.drive, { queue with running := true })
  else (.wait, { queue with pending := some (fold queue.pending cause intent tx) })

/-- `QueueLease::next`: take the pending request, or release the queue when there is none. -/
def next (queue : QueueState) : Option Pending × QueueState :=
  match queue.pending with
  | some pending => (some pending, { queue with pending := none })
  | none => (none, ⟨false, none⟩)

/-- `QueueLease::drop`, of a lease that was not released: who was pending is told so. -/
def drop (queue : QueueState) : List ℕ × QueueState :=
  ((queue.pending.map (·.waiters)).getD [], ⟨false, none⟩)

end QueueState

/-- A live lease, with the batch that its driver is running. -/
structure QueueLease where
  id : ℕ
  batch : Option Pending
  deriving DecidableEq

/-- The queue with those who use it: the live leases, what was sent to whom, and how many waiters
and drivers there have been. -/
structure Requests where
  queue : QueueState
  leases : List QueueLease
  sent : List (ℕ × ActivationResult)
  waiters : ℕ
  drivers : ℕ

/-- What a caller or a driver does next. A driver finishes the batch it runs before it asks for
another one, and may be dropped at any point. -/
inductive QueueStep
  | admission (cause : GenerationCause) (intent : ActivationIntent)
  | next (lease : ℕ)
  | finish (lease : ℕ) (outcome : ActivationResult)
  | drop (lease : ℕ)

namespace Requests

/-- Before the first request. -/
def idle : Requests := ⟨⟨false, none⟩, [], [], 0, 0⟩

variable (s : Requests)

def lease (id : ℕ) : Option QueueLease := s.leases.find? fun l => l.id = id

def setBatch (id : ℕ) (batch : Option Pending) : List QueueLease :=
  s.leases.map fun l => if l.id = id then { l with batch } else l

/-- The leases without one that has ended. -/
def without (id : ℕ) : List QueueLease := s.leases.filter fun l => l.id ≠ id

def step : QueueStep → Requests
  | .admission cause intent =>
    match s.queue.admission cause intent s.waiters with
    | (.drive, queue) =>
      { s with queue, leases := ⟨s.drivers, none⟩ :: s.leases, drivers := s.drivers + 1 }
    | (.wait, queue) => { s with queue, waiters := s.waiters + 1 }
  | .next id =>
    match s.lease id with
    | some ⟨_, none⟩ =>
      match s.queue.next with
      | (some pending, queue) => { s with queue, leases := s.setBatch id (some pending) }
      | (none, queue) => { s with queue, leases := s.without id }
    | _ => s
  | .finish id outcome =>
    match s.lease id with
    | some ⟨_, some batch⟩ =>
      { s with
        leases := s.setBatch id none
        sent := batch.waiters.map (fun waiter => (waiter, outcome)) ++ s.sent }
    | _ => s
  | .drop id =>
    match s.lease id with
    | some _ =>
      let (orphaned, queue) := s.queue.drop
      { s with
        queue
        leases := s.without id
        sent := orphaned.map (fun waiter => (waiter, .error .runtime)) ++ s.sent }
    | none => s

/-- Run a sequence of steps. -/
def run (steps : List QueueStep) : Requests := steps.foldl step s

@[simp] theorem run_append_singleton (steps : List QueueStep) (last : QueueStep) :
    s.run (steps ++ [last]) = (s.run steps).step last := by
  simp [run]

end Requests

/-! ## Where the waiters are -/

/-- Who waits for the batch that a driver is running. -/
def QueueLease.waiters (l : QueueLease) : List ℕ := (l.batch.map (·.waiters)).getD []

namespace Requests

variable (s : Requests)

def pendingWaiters : List ℕ := (s.queue.pending.map (·.waiters)).getD []

/-- The waiters that are pending, held by a driver, or sent a result. -/
def places : List ℕ :=
  s.pendingWaiters ++ (s.leases.flatMap QueueLease.waiters ++ s.sent.map (·.1))

/-- The waiters whose senders go away with a driver: those of the batch that it runs. -/
def dropped : QueueStep → List ℕ
  | .drop id => ((s.lease id).map (·.waiters)).getD []
  | _ => []

/-- The waiter that a step lets in. -/
def entering : QueueStep → List ℕ
  | .admission .. => if s.queue.running then [s.waiters] else []
  | _ => []

/-- Every waiter is accounted for, and one driver runs at a time. -/
structure Answered : Prop where
  one : s.leases.length ≤ 1
  /-- A waiter is pending, or held by the batch of a live driver, or was sent one result. -/
  accounted : ∀ waiter < s.waiters, s.places.count waiter = 1
  live : s.pendingWaiters ≠ [] → s.leases ≠ []
  /-- After the last lease has ended, the next request drives. -/
  drives : s.leases = [] → ∀ cause intent, (s.queue.admission cause intent s.waiters).1 = .drive

/-- What holds of the queue however it is used. -/
structure Shaped : Prop where
  driven : s.leases = [] ∧ s.queue = ⟨false, none⟩ ∨ ∃ l, s.leases = [l] ∧ s.queue.running = true
  nodup : s.places.Nodup
  drawn : ∀ waiter ∈ s.places, waiter < s.waiters
  pending : ∀ pending, s.queue.pending = some pending → pending.waiters ≠ []
  batch : ∀ l ∈ s.leases, ∀ batch, l.batch = some batch → batch.waiters ≠ []

end Requests

theorem waiters_fold (pending : Option Pending) (cause : GenerationCause)
    (intent : ActivationIntent) (tx : ℕ) :
    (QueueState.fold pending cause intent tx).waiters =
      (pending.map (·.waiters)).getD [] ++ [tx] := by
  cases pending with
  | none => rfl
  | some pending =>
    unfold QueueState.fold
    dsimp only
    split <;> rfl

section Lease

variable {s : Requests} {l : QueueLease} {id : ℕ}

theorem lease_singleton (h : s.leases = [l]) :
    s.lease id = if l.id = id then some l else none := by
  unfold Requests.lease
  rw [h, List.find?_cons, List.find?_nil]
  by_cases hid : l.id = id
  · simp [hid]
  · simp [hid]

theorem lease_nil (h : s.leases = []) : s.lease id = none := by
  unfold Requests.lease
  rw [h]
  rfl

theorem setBatch_singleton (h : s.leases = [l]) (hid : l.id = id) (batch : Option Pending) :
    s.setBatch id batch = [{ l with batch }] := by
  simp [Requests.setBatch, h, hid]

theorem without_singleton (h : s.leases = [l]) (hid : l.id = id) : s.without id = [] := by
  simp [Requests.without, h, hid]

end Lease

/-- What a step does to a queue that is driven: the lease and the slot after it, what it sends, and
that no waiter goes elsewhere. -/
theorem step_spec {s : Requests} (h : s.Shaped) (last : QueueStep) :
    (s.step last).Shaped ∧
      ((s.step last).places ++ s.dropped last).Perm (s.entering last ++ s.places) ∧
      (s.step last).waiters = s.waiters + (s.entering last).length := by
  have hshaped : ∀ s' : Requests, (s'.places ++ s.dropped last).Perm (s.entering last ++ s.places) →
      s'.waiters = s.waiters + (s.entering last).length →
      (s'.leases = [] ∧ s'.queue = ⟨false, none⟩ ∨ ∃ l, s'.leases = [l] ∧ s'.queue.running = true) →
      (∀ pending, s'.queue.pending = some pending → pending.waiters ≠ []) →
      (∀ l ∈ s'.leases, ∀ batch, l.batch = some batch → batch.waiters ≠ []) → s'.Shaped := by
    intro s' hperm hwaiters hdriven hpending hbatch
    have hentering : ∀ waiter ∈ s.entering last, waiter = s.waiters := by
      intro waiter hwaiter
      cases last with
      | admission cause intent =>
        simp only [Requests.entering] at hwaiter
        split at hwaiter
        · exact List.mem_singleton.mp hwaiter
        · cases hwaiter
      | next _ | finish _ _ | drop _ => cases hwaiter
    have hlength : ∀ waiter ∈ s.entering last, 0 < (s.entering last).length :=
      fun waiter hwaiter => List.length_pos_of_mem hwaiter
    have hnodup : (s.entering last ++ s.places).Nodup := by
      refine List.nodup_append.mpr ⟨?_, h.nodup, fun a ha b hb hab => ?_⟩
      · cases last with
        | admission cause intent =>
          simp only [Requests.entering]
          split <;> simp
        | next _ | finish _ _ | drop _ => exact List.nodup_nil
      · rw [hentering a ha] at hab
        exact absurd (h.drawn b hb) (by omega)
    refine ⟨hdriven, (hperm.nodup_iff.mpr hnodup).of_append_left, fun waiter hwaiter => ?_,
      hpending, hbatch⟩
    rcases List.mem_append.mp (hperm.mem_iff.mp (List.mem_append_left _ hwaiter)) with hnew | hold
    · have hpos := hlength waiter hnew
      rw [hentering waiter hnew]
      omega
    · have hlt := h.drawn waiter hold
      omega
  suffices hstep : ((s.step last).places ++ s.dropped last).Perm (s.entering last ++ s.places) ∧
      (s.step last).waiters = s.waiters + (s.entering last).length ∧
      ((s.step last).leases = [] ∧ (s.step last).queue = ⟨false, none⟩ ∨
        ∃ l, (s.step last).leases = [l] ∧ (s.step last).queue.running = true) ∧
      (∀ pending, (s.step last).queue.pending = some pending → pending.waiters ≠ []) ∧
      ∀ l ∈ (s.step last).leases, ∀ batch, l.batch = some batch → batch.waiters ≠ [] by
    obtain ⟨hperm, hwaiters, hdriven, hpending, hbatch⟩ := hstep
    exact ⟨hshaped _ hperm hwaiters hdriven hpending hbatch, hperm, hwaiters⟩
  -- a driver that is not there, or is not asked for what it can do
  have hstill : s.step last = s → s.dropped last = [] → s.entering last = [] →
      ((s.step last).places ++ s.dropped last).Perm (s.entering last ++ s.places) ∧
        (s.step last).waiters = s.waiters + (s.entering last).length ∧
        ((s.step last).leases = [] ∧ (s.step last).queue = ⟨false, none⟩ ∨
          ∃ l, (s.step last).leases = [l] ∧ (s.step last).queue.running = true) ∧
        (∀ pending, (s.step last).queue.pending = some pending → pending.waiters ≠ []) ∧
        ∀ l ∈ (s.step last).leases, ∀ batch, l.batch = some batch → batch.waiters ≠ [] := by
    intro hstep hdropped hentering
    rw [hstep, hdropped, hentering, List.append_nil, List.nil_append]
    exact ⟨.refl _, rfl, h.driven, h.pending, h.batch⟩
  rcases h.driven with ⟨hleases, hqueue⟩ | ⟨l, hleases, hrunning⟩
  · -- nobody drives: only a request does anything
    cases last with
    | admission cause intent =>
      simp [Requests.step, Requests.dropped, Requests.entering, QueueState.admission, hqueue, hleases,
        Requests.places, Requests.pendingWaiters, QueueLease.waiters]
    | next id | finish id outcome =>
      exact hstill (by simp only [Requests.step, lease_nil hleases]) rfl rfl
    | drop id =>
      exact hstill (by simp only [Requests.step, lease_nil hleases])
        (by simp [Requests.dropped, lease_nil hleases]) rfl
  · cases last with
    | admission cause intent =>
      have hwaiters := waiters_fold s.queue.pending cause intent s.waiters
      refine ⟨?_, ?_, .inr ⟨l, ?_, ?_⟩, ?_, ?_⟩
      · simp only [Requests.step, Requests.dropped, Requests.entering, QueueState.admission, hrunning,
          Requests.places, Requests.pendingWaiters, Bool.not_true, Bool.false_eq_true, if_false,
          if_true, Option.map_some, Option.getD_some, hwaiters, List.append_nil, List.append_assoc]
        exact List.perm_middle
      · simp [Requests.step, Requests.entering, QueueState.admission, hrunning]
      · simp [Requests.step, QueueState.admission, hrunning, hleases]
      · simp [Requests.step, QueueState.admission, hrunning]
      · intro pending hpending
        simp only [Requests.step, QueueState.admission, hrunning, Bool.not_true, Bool.false_eq_true,
          if_false, Option.some.injEq] at hpending
        rw [← hpending, hwaiters]
        simp
      · simpa [Requests.step, QueueState.admission, hrunning] using h.batch
    | next id =>
      by_cases hid : l.id = id
      swap
      · exact hstill (by simp only [Requests.step, lease_singleton hleases, if_neg hid]) rfl rfl
      obtain ⟨lid, batch⟩ := l
      cases batch with
      | some batch =>
        exact hstill (by simp only [Requests.step, lease_singleton hleases, if_pos hid]) rfl rfl
      | none =>
        have hlease : s.lease id = some ⟨lid, none⟩ := by rw [lease_singleton hleases, if_pos hid]
        cases hpending : s.queue.pending with
        | none =>
          have hstep : s.step (.next id) = { s with queue := ⟨false, none⟩, leases := [] } := by
            simp only [Requests.step, hlease, QueueState.next, hpending,
              without_singleton hleases hid]
          rw [hstep]
          simp [Requests.dropped, Requests.entering, Requests.places, Requests.pendingWaiters,
            hpending, hleases, QueueLease.waiters]
        | some pending =>
          have hsome := h.pending pending hpending
          have hstep : s.step (.next id) =
              { s with queue := ⟨true, none⟩, leases := [⟨lid, some pending⟩] } := by
            simp only [Requests.step, hlease, QueueState.next, hpending, hrunning,
              setBatch_singleton hleases hid]
          rw [hstep]
          simp [Requests.dropped, Requests.entering, Requests.places, Requests.pendingWaiters,
            hpending, hleases, QueueLease.waiters, hsome]
    | finish id outcome =>
      by_cases hid : l.id = id
      swap
      · exact hstill (by simp only [Requests.step, lease_singleton hleases, if_neg hid]) rfl rfl
      obtain ⟨lid, batch⟩ := l
      cases batch with
      | none =>
        exact hstill (by simp only [Requests.step, lease_singleton hleases, if_pos hid]) rfl rfl
      | some batch =>
        have hstep : s.step (.finish id outcome) =
            { s with
              leases := [⟨lid, none⟩]
              sent := batch.waiters.map (fun waiter => (waiter, outcome)) ++ s.sent } := by
          simp only [Requests.step, lease_singleton hleases, if_pos hid,
            setBatch_singleton hleases hid]
        rw [hstep]
        refine ⟨?_, rfl, .inr ⟨_, rfl, hrunning⟩, h.pending, ?_⟩
        · simp [Requests.dropped, Requests.entering, Requests.places, Requests.pendingWaiters,
            hleases, QueueLease.waiters, Function.comp_def]
        · simp
    | drop id =>
      by_cases hid : l.id = id
      swap
      · exact hstill (by simp only [Requests.step, lease_singleton hleases, if_neg hid])
          (by simp [Requests.dropped, lease_singleton hleases, hid]) rfl
      refine ⟨?_, ?_, .inl ⟨?_, ?_⟩, ?_, ?_⟩
      · simp only [Requests.step, Requests.dropped, Requests.entering, lease_singleton hleases, hid,
          if_true, without_singleton hleases hid, Requests.places, Requests.pendingWaiters, hleases,
          QueueState.drop, List.flatMap_nil, List.flatMap_cons, List.append_nil, List.nil_append,
          Option.map_none, Option.getD_none, Option.map_some, Option.getD_some, List.map_append,
          List.map_map, Function.comp_def, List.map_id', List.append_assoc]
        exact List.Perm.append_left _ List.perm_append_comm
      · simp [Requests.step, Requests.entering, lease_singleton hleases, hid]
      · simp [Requests.step, lease_singleton hleases, hid, without_singleton hleases hid]
      · simp [Requests.step, lease_singleton hleases, hid, QueueState.drop]
      · simp [Requests.step, lease_singleton hleases, hid, QueueState.drop]
      · simp [Requests.step, lease_singleton hleases, hid, without_singleton hleases hid]

theorem shaped_idle : Requests.idle.Shaped where
  driven := .inl ⟨rfl, rfl⟩
  nodup := List.nodup_nil
  drawn := fun _ h => absurd h List.not_mem_nil
  pending := nofun
  batch := fun _ h => absurd h List.not_mem_nil

/-- The queue keeps its shape in every run. -/
theorem shaped_run (steps : List QueueStep) : (Requests.idle.run steps).Shaped := by
  induction steps using List.reverseRecOn with
  | nil => exact shaped_idle
  | append_singleton steps last ih =>
    rw [Requests.run_append_singleton]
    exact (step_spec ih last).1

/-- A queue of that shape answers everyone if every waiter that came in is somewhere. -/
theorem Requests.Shaped.accounted_iff {s : Requests} (h : s.Shaped) :
    s.Answered ↔ ∀ waiter < s.waiters, waiter ∈ s.places := by
  constructor
  · intro hanswered waiter hwaiter
    exact List.count_pos_iff.mp (by rw [hanswered.accounted waiter hwaiter]; exact Nat.one_pos)
  · intro hall
    refine ⟨?_, fun waiter hwaiter => List.count_eq_one_of_mem h.nodup (hall waiter hwaiter), ?_, ?_⟩
    · rcases h.driven with ⟨hleases, -⟩ | ⟨l, hleases, -⟩ <;> simp [hleases]
    · intro hpending
      rcases h.driven with ⟨-, hqueue⟩ | ⟨l, hleases, -⟩
      · exact absurd (by simp [Requests.pendingWaiters, hqueue]) hpending
      · simp [hleases]
    · intro hnone cause intent
      rcases h.driven with ⟨-, hqueue⟩ | ⟨l, hleases, -⟩
      · simp [QueueState.admission, hqueue]
      · rw [hnone] at hleases
        cases hleases

/-- A batch that goes away with its driver has someone waiting for it. -/
theorem dropped_lost {s : Requests} (h : s.Shaped) {last : QueueStep} {waiter : ℕ}
    (hwaiter : waiter ∈ s.dropped last) :
    waiter < (s.step last).waiters ∧ waiter ∉ (s.step last).places := by
  obtain ⟨hshaped, hperm, hwaiters⟩ := step_spec h last
  have hnone : s.entering last = [] := by
    cases last with
    | drop _ => rfl
    | admission _ _ | next _ | finish _ _ => cases hwaiter
  rw [hnone, List.nil_append] at hperm
  have hold : waiter ∈ s.places := hperm.mem_iff.mp (List.mem_append_right _ hwaiter)
  refine ⟨by rw [hwaiters]; exact Nat.lt_of_lt_of_le (h.drawn waiter hold) (Nat.le_add_right ..), ?_⟩
  have hnodup := hperm.nodup_iff.mpr h.nodup
  exact fun hplaced => (List.nodup_append.mp hnodup).2.2 waiter hplaced waiter hwaiter rfl

/-- In a run, everyone is answered exactly if no driver is dropped inside a batch. -/
theorem answered_iff (steps : List QueueStep) :
    (∀ past later, steps = past ++ later → (Requests.idle.run past).Answered) ↔
      ∀ past last later, steps = past ++ last :: later →
        (Requests.idle.run past).dropped last = [] := by
  constructor
  · intro hanswered past last later hsteps
    refine List.eq_nil_iff_forall_not_mem.mpr fun waiter hwaiter => ?_
    obtain ⟨hdrawn, hlost⟩ := dropped_lost (shaped_run past) hwaiter
    have hafter := hanswered (past ++ [last]) later (by simp [hsteps])
    rw [Requests.run_append_singleton] at hafter
    have hshaped := (step_spec (shaped_run past) last).1
    exact hlost (hshaped.accounted_iff.mp hafter waiter hdrawn)
  · intro hdropped past
    induction past using List.reverseRecOn with
    | nil =>
      exact fun _ _ => shaped_idle.accounted_iff.mpr fun _ h => absurd h (Nat.not_lt_zero _)
    | append_singleton past last ih =>
      intro later hsteps
      rw [List.append_assoc, List.singleton_append] at hsteps
      have hbefore := (shaped_run past).accounted_iff.mp (ih (last :: later) hsteps)
      obtain ⟨hshaped, hperm, hwaiters⟩ := step_spec (shaped_run past) last
      rw [hdropped past last later hsteps, List.append_nil] at hperm
      rw [Requests.run_append_singleton]
      refine hshaped.accounted_iff.mpr fun waiter hwaiter => hperm.mem_iff.mpr ?_
      rw [hwaiters] at hwaiter
      by_cases hold : waiter < (Requests.idle.run past).waiters
      · exact List.mem_append_right _ (hbefore waiter hold)
      · refine List.mem_append_left _ ?_
        cases last with
        | admission cause intent =>
          simp only [Requests.entering] at hwaiter ⊢
          split at hwaiter
          · rw [if_pos ‹_›]
            simp only [List.length_singleton] at hwaiter
            exact List.mem_singleton.mpr (by omega)
          · simp only [List.length_nil] at hwaiter
            omega
        | next _ | finish _ _ | drop _ => exact absurd hwaiter hold

/-- A driver is dropped while it runs the batch of a site write that was folded in. -/
def cutBatch : List QueueStep :=
  [.admission .siteWrite .siteOnly, .admission .siteWrite .siteOnly, .next 0, .drop 0]

/-- Whoever waits for a batch whose driver is dropped is sent nothing. -/
theorem answered_fails_cutBatch :
    ¬ ∀ past later, cutBatch = past ++ later → (Requests.idle.run past).Answered := by
  intro h
  have haccounted := (h cutBatch [] (List.append_nil _).symm).accounted 0 (by decide)
  revert haccounted
  decide

end Dev
