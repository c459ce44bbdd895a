import Mathlib.Data.List.Nodup
import Mathlib.Tactic.Common
import Mathlib.Algebra.Group.Nat.Defs

/-!
# The build slot of an isolate

Requests of one isolate interleave at their awaits, and one of them at a time builds its runtime.
The owner of the slot holds a guard. A request may be dropped, which releases its guard, or be
stopped by the platform without its destructors being run; its slot is then reclaimed after a lease.
An owner that was taken for stopped may still resume.

Source: `impresspress-cloudflare`, `runtime_cache.rs`.

## Main definitions

* `RuntimeCache.Cells`: the cells of the isolate.
* `RuntimeCache.Cells.tryAcquire`, `RuntimeCache.Cells.drop`: how the slot is taken and released.
* `RuntimeCache.Cells.store`, `RuntimeCache.Cells.settleWindow`, …: what an owner leaves behind.
* `RuntimeCache.Isolate`, `RuntimeCache.Isolate.step`: the guards that are held, and what happens.

## Main results

* `RuntimeCache.single_flight`: one owner at a time, and nothing is left behind by a former one.
-/

namespace RuntimeCache

def buildLeaseMs : ℕ := 5000

def buildHardLeaseMs : ℕ := 10000

structure BuildFailure where
  atMs : ℕ
  owner : ℕ
  deriving DecidableEq, Repr

inductive WindowCause
  | degraded
  | buildUnavailable
  | rebuildFailed
  | gateFailed
  | hydrateFailed
  | fault
  deriving DecidableEq, Repr

structure RetryWindow where
  failures : ℕ
  armedAtMs : ℕ
  retryAtMs : ℕ
  cause : WindowCause
  deriving DecidableEq, Repr

structure BackendCheck where
  answered : Bool
  sinceMs : ℕ
  checkedMs : ℕ
  deriving DecidableEq, Repr

/-- `BackendCheck::after`. -/
def BackendCheck.next (previous : Option BackendCheck) (answered : Bool) (atMs : ℕ) :
    BackendCheck :=
  match previous with
  | none => ⟨answered, atMs, atMs⟩
  | some previous =>
    if atMs < previous.checkedMs then previous
    else if previous.answered = answered then ⟨answered, previous.sinceMs, atMs⟩
    else ⟨answered, atMs, atMs⟩

/-- `liveness` is the strong token that the guard keeps alive. -/
structure BuildGuard where
  owner : ℕ
  liveness : ℕ
  deriving DecidableEq, Repr

/-- The cells of an isolate whose runtimes are of type `Rt`; `buildLiveness` is a weak token. -/
structure Cells (Rt : Type) where
  runtime : Option Rt
  building : Bool
  buildStartedMs : ℕ
  buildOwner : ℕ
  nextBuildOwner : ℕ
  buildLiveness : Option ℕ
  buildLastFailure : Option BuildFailure
  dirty : Bool
  retryWindow : Option RetryWindow
  backendCheck : Option BackendCheck

namespace Cells

variable {Rt : Type}

/-- A cold isolate. -/
def cold : Cells Rt := ⟨none, false, 0, 0, 0, none, none, false, none, none⟩

/-- `owner_liveness_token_alive`; `tokens` are the strong tokens that still exist. -/
def ownerAlive (tokens : List ℕ) (c : Cells Rt) : Bool := c.buildLiveness.any (tokens.contains ·)

/-- Whether the slot may be taken from its owner. -/
def stale (tokens : List ℕ) (now : ℕ) (c : Cells Rt) : Bool :=
  let heldMs := now - c.buildStartedMs
  c.building && (c.buildStartedMs == 0 || decide (heldMs ≥ buildHardLeaseMs) ||
    (!c.ownerAlive tokens && decide (heldMs ≥ buildLeaseMs)))

/-- `build_slot_active`. -/
def slotActive (tokens : List ℕ) (now : ℕ) (c : Cells Rt) : Bool :=
  c.building && (c.buildStartedMs != 0 && decide (now - c.buildStartedMs < buildHardLeaseMs) &&
    (c.ownerAlive tokens || decide (now - c.buildStartedMs < buildLeaseMs)))

/-- The slot without an owner. -/
def release (c : Cells Rt) : Cells Rt :=
  { c with building := false, buildStartedMs := 0, buildOwner := 0, buildLiveness := none }

/-- A slot taken from an owner that was interrupted: the runtime that is cached may be of
configuration from before a write that the owner had taken note of. -/
def reclaim (c : Cells Rt) : Cells Rt := { c.release with dirty := c.runtime.isSome || c.dirty }

/-- `next.wrapping_add(1).max(1)` over 64 bits. -/
def freshOwner (c : Cells Rt) : ℕ := max ((c.nextBuildOwner + 1) % 2 ^ 64) 1

/-- `BuildGuard::try_acquire`; `liveness` is the token that the new guard would hold. -/
def tryAcquire (tokens : List ℕ) (liveness now : ℕ) (c : Cells Rt) : Option BuildGuard × Cells Rt :=
  let c := if c.stale tokens now then c.reclaim else c
  if c.building then (none, c)
  else (some ⟨c.freshOwner, liveness⟩, { c with
    building := true
    buildStartedMs := now
    nextBuildOwner := c.freshOwner
    buildOwner := c.freshOwner
    buildLiveness := some liveness })

/-- `BuildGuard::is_current`. -/
def isCurrent (c : Cells Rt) (guard : BuildGuard) : Bool :=
  c.building && c.buildOwner == guard.owner

/-- `BuildGuard::record_failure`. -/
def recordFailure (guard : BuildGuard) (now : ℕ) (c : Cells Rt) : Cells Rt :=
  if c.isCurrent guard then { c with buildLastFailure := some ⟨now, guard.owner⟩ } else c

/-- `Drop for BuildGuard`. -/
def drop (guard : BuildGuard) (c : Cells Rt) : Cells Rt :=
  if c.buildOwner = guard.owner then c.release else c

/-- `store_if_current`. -/
def store (guard : BuildGuard) (rt : Rt) (c : Cells Rt) : Cells Rt :=
  if c.isCurrent guard then { c with runtime := some rt } else c

/-- `retry_delay_ms`. -/
def retryDelayMs (failures : ℕ) : ℕ := min (1000 * 2 ^ min (failures - 1) 16) 60000

/-- `arm_window`; the jitter is at most a quarter of the delay. -/
def armWindow (now : ℕ) (cause : WindowCause) (jitter : ℕ) (c : Cells Rt) : Cells Rt :=
  let failures := c.retryWindow.elim 1 fun window => min (window.failures + 1) (2 ^ 32 - 1)
  let delay := retryDelayMs failures
  { c with retryWindow := some {
      failures
      armedAtMs := c.retryWindow.elim now (·.armedAtMs)
      retryAtMs := now + delay + jitter % (delay / 4 + 1)
      cause } }

/-- `settle_window`. -/
def settleWindow (guard : BuildGuard) (now : ℕ) (degraded : Bool) (jitter : ℕ) (c : Cells Rt) :
    Cells Rt :=
  if c.isCurrent guard then
    if degraded then c.armWindow now .degraded jitter else { c with retryWindow := none }
  else c

/-- The window as `rebuild_failed` leaves it. -/
def rebuildFailed (guard : BuildGuard) (now : ℕ) (cause : WindowCause) (jitter : ℕ)
    (c : Cells Rt) : Cells Rt :=
  if c.isCurrent guard then c.armWindow now cause jitter else c

/-- `settle_backend` of an attempt that reached the database. -/
def settleBackend (guard : BuildGuard) (now : ℕ) (answered : Bool) (c : Cells Rt) : Cells Rt :=
  if c.isCurrent guard then
    { c with backendCheck := some (BackendCheck.next c.backendCheck answered now) }
  else c

end Cells

/-- What an owner does with its guard while it builds, and when its future is dropped. -/
inductive Deed (Rt : Type)
  | recordFailure (now : ℕ)
  | store (rt : Rt)
  | settleWindow (now : ℕ) (degraded : Bool) (jitter : ℕ)
  | rebuildFailed (now : ℕ) (cause : WindowCause) (jitter : ℕ)
  | settleBackend (now : ℕ) (answered : Bool)
  | drop

def Deed.cells {Rt : Type} (guard : BuildGuard) : Deed Rt → Cells Rt → Cells Rt
  | recordFailure now => Cells.recordFailure guard now
  | store rt => Cells.store guard rt
  | settleWindow now degraded jitter => Cells.settleWindow guard now degraded jitter
  | rebuildFailed now cause jitter => Cells.rebuildFailed guard now cause jitter
  | settleBackend now answered => Cells.settleBackend guard now answered
  | drop => Cells.drop guard

/-- What happens in an isolate between two awaits. A request that is stopped runs no destructor; its
strong token is freed with it or not. -/
inductive Event (Rt : Type)
  | acquire (now : ℕ)
  | deed (guard : BuildGuard) (deed : Deed Rt)
  | stopped (guard : BuildGuard) (freed : Bool)
  | markDirty
  | takeDirty

/-- The isolate: its cells, the guards that running requests hold, the strong tokens that exist and
how many there have been. -/
structure Isolate (Rt : Type) where
  cells : Cells Rt
  guards : List BuildGuard
  tokens : List ℕ
  allocated : ℕ

namespace Isolate

variable {Rt : Type}

def fresh : Isolate Rt := ⟨.cold, [], [], 0⟩

def step (s : Isolate Rt) : Event Rt → Isolate Rt
  | .acquire now =>
    match s.cells.tryAcquire s.tokens s.allocated now with
    | (none, cells) => { s with cells }
    | (some guard, cells) => ⟨cells, guard :: s.guards, s.allocated :: s.tokens, s.allocated + 1⟩
  | .deed guard deed =>
    if guard ∈ s.guards then
      match deed with
      | .drop => { s with
          cells := Deed.drop.cells guard s.cells
          guards := s.guards.erase guard
          tokens := s.tokens.erase guard.liveness }
      | deed => { s with cells := deed.cells guard s.cells }
    else s
  | .stopped guard freed =>
    if guard ∈ s.guards then
      { s with
        guards := s.guards.erase guard
        tokens := if freed then s.tokens.erase guard.liveness else s.tokens }
    else s
  | .markDirty => { s with cells := { s.cells with dirty := true } }
  | .takeDirty => { s with cells := { s.cells with dirty := false } }

def run (s : Isolate Rt) (events : List (Event Rt)) : Isolate Rt := events.foldl step s

end Isolate

/-- How often the slot is asked for. -/
def acquisitions {Rt : Type} (events : List (Event Rt)) : ℕ :=
  events.countP fun
    | .acquire _ => true
    | _ => false

section Slot

variable {Rt : Type} {c : Cells Rt} {guard : BuildGuard}

/-- A waiter sees the slot as inactive exactly where it can be had. -/
theorem slotActive_iff (tokens : List ℕ) (now : ℕ) (c : Cells Rt) :
    c.slotActive tokens now = false ↔ c.building = false ∨ c.stale tokens now = true := by
  unfold Cells.slotActive Cells.stale
  cases c.building with
  | false => simp
  | true =>
    cases c.ownerAlive tokens with
    | false => simp; omega
    | true => simp; omega

/-- What a request that asks for the slot finds: an owner whose lease runs, or a slot to take. -/
theorem tryAcquire_cases (tokens : List ℕ) (liveness now : ℕ) (c : Cells Rt) :
    (c.slotActive tokens now = true ∧ c.tryAcquire tokens liveness now = (none, c)) ∨
      (c.slotActive tokens now = false ∧ ∃ dirty, c.tryAcquire tokens liveness now =
        (some ⟨c.freshOwner, liveness⟩, { c with
          building := true
          buildStartedMs := now
          nextBuildOwner := c.freshOwner
          buildOwner := c.freshOwner
          buildLiveness := some liveness
          dirty })) := by
  cases hactive : c.slotActive tokens now with
  | true =>
    refine .inl ⟨rfl, ?_⟩
    have hnot := (not_congr (slotActive_iff tokens now c)).mp (by rw [hactive]; exact nofun)
    obtain ⟨hbuilding, hstale⟩ := not_or.mp hnot
    unfold Cells.tryAcquire
    rw [if_neg hstale]
    exact if_pos (eq_true_of_ne_false hbuilding)
  | false =>
    refine .inr ⟨rfl, ?_⟩
    unfold Cells.tryAcquire
    by_cases hstale : c.stale tokens now = true
    · exact ⟨c.runtime.isSome || c.dirty, by rw [if_pos hstale]; rfl⟩
    · have hbuilding : c.building = false :=
        ((slotActive_iff tokens now c).mp hactive).resolve_right hstale
      refine ⟨c.dirty, ?_⟩
      rw [if_neg hstale]
      exact if_neg (by rw [hbuilding]; exact nofun)

/-- A deed leaves the slot with its owner or without one, and issues no token. -/
theorem Deed.cells_slot (deed : Deed Rt) (guard : BuildGuard) (c : Cells Rt) :
    (deed.cells guard c).nextBuildOwner = c.nextBuildOwner ∧
      ((deed.cells guard c).building = c.building ∧
          (deed.cells guard c).buildOwner = c.buildOwner ∨
        (deed.cells guard c).building = false ∧ (deed.cells guard c).buildOwner = 0) := by
  cases deed <;>
    simp only [Deed.cells, Cells.recordFailure, Cells.store, Cells.settleWindow,
      Cells.rebuildFailed, Cells.settleBackend, Cells.drop] <;>
    split_ifs <;> simp [Cells.armWindow, Cells.release]

/-- A guard whose token is not that of the owner changes nothing. -/
theorem Deed.cells_of_ne (deed : Deed Rt) (h : c.buildOwner ≠ guard.owner) :
    deed.cells guard c = c := by
  have hcurrent : c.isCurrent guard = false := by simp [Cells.isCurrent, h]
  cases deed with
  | drop => exact if_neg h
  | recordFailure now => exact if_neg (by rw [hcurrent]; exact nofun)
  | store rt => exact if_neg (by rw [hcurrent]; exact nofun)
  | settleWindow now degraded jitter => exact if_neg (by rw [hcurrent]; exact nofun)
  | rebuildFailed now cause jitter => exact if_neg (by rw [hcurrent]; exact nofun)
  | settleBackend now answered => exact if_neg (by rw [hcurrent]; exact nofun)

end Slot

namespace Isolate

variable {Rt : Type} {s : Isolate Rt} {guard : BuildGuard} {count : ℕ}

/-- What holds of an isolate in which the slot was asked for at most `count` times. -/
structure Sound (count : ℕ) (s : Isolate Rt) : Prop where
  issued : s.cells.nextBuildOwner ≤ count
  held : ∀ guard ∈ s.guards, 1 ≤ guard.owner ∧ guard.owner ≤ s.cells.nextBuildOwner
  distinct : (s.guards.map BuildGuard.owner).Nodup
  free : s.cells.building = false → s.cells.buildOwner = 0

/-- The guard has been issued, and the slot is not its own. -/
structure Superseded (guard : BuildGuard) (s : Isolate Rt) : Prop where
  issued : 1 ≤ guard.owner ∧ guard.owner ≤ s.cells.nextBuildOwner
  ne_owner : s.cells.buildOwner ≠ guard.owner

theorem Superseded.isCurrent (h : Superseded guard s) : s.cells.isCurrent guard = false := by
  simp [Cells.isCurrent, h.ne_owner]

theorem sound_fresh : Sound 0 (fresh : Isolate Rt) where
  issued := Nat.le_refl 0
  held := nofun
  distinct := List.nodup_nil
  free := fun _ => rfl

theorem Sound.mono {count' : ℕ} (h : Sound count s) (hcount : count ≤ count') : Sound count' s :=
  ⟨Nat.le_trans h.issued hcount, h.held, h.distinct, h.free⟩

/-- As long as the tokens last, the next one is larger than all before it. -/
theorem Sound.freshOwner_eq (h : Sound count s) (hcount : count + 1 < 2 ^ 64) :
    s.cells.freshOwner = s.cells.nextBuildOwner + 1 := by
  have := h.issued
  rw [Cells.freshOwner, Nat.mod_eq_of_lt (by omega)]
  omega

/-- What becomes of the cells and the guards when a guard has done something or has gone. -/
theorem Sound.keep {s' : Isolate Rt} (h : Sound count s)
    (hguards : s'.guards.Sublist s.guards)
    (hnext : s'.cells.nextBuildOwner = s.cells.nextBuildOwner)
    (hslot : s'.cells.building = s.cells.building ∧ s'.cells.buildOwner = s.cells.buildOwner ∨
      s'.cells.building = false ∧ s'.cells.buildOwner = 0) : Sound count s' where
  issued := hnext ▸ h.issued
  held := fun guard hguard => hnext ▸ h.held guard (hguards.subset hguard)
  distinct := h.distinct.sublist (hguards.map _)
  free := by
    rcases hslot with ⟨hbuilding, howner⟩ | ⟨_, howner⟩
    · rw [hbuilding, howner]
      exact h.free
    · exact fun _ => howner

theorem Superseded.keep {s' : Isolate Rt} (h : Superseded guard s)
    (hnext : s'.cells.nextBuildOwner = s.cells.nextBuildOwner)
    (hslot : s'.cells.building = s.cells.building ∧ s'.cells.buildOwner = s.cells.buildOwner ∨
      s'.cells.building = false ∧ s'.cells.buildOwner = 0) : Superseded guard s' where
  issued := hnext ▸ h.issued
  ne_owner := by
    rcases hslot with ⟨_, howner⟩ | ⟨_, howner⟩
    · rw [howner]
      exact h.ne_owner
    · rw [howner]
      have := h.issued.1
      omega

/-- What an event other than an acquisition does. -/
structure Quiet (s s' : Isolate Rt) : Prop where
  guards : s'.guards.Sublist s.guards
  next : s'.cells.nextBuildOwner = s.cells.nextBuildOwner
  slot : s'.cells.building = s.cells.building ∧ s'.cells.buildOwner = s.cells.buildOwner ∨
    s'.cells.building = false ∧ s'.cells.buildOwner = 0

theorem quiet_step {event : Event Rt} (h : ∀ now, event ≠ .acquire now) :
    Quiet s (s.step event) := by
  cases event with
  | acquire now => exact absurd rfl (h now)
  | markDirty => exact ⟨List.Sublist.refl _, rfl, .inl ⟨rfl, rfl⟩⟩
  | takeDirty => exact ⟨List.Sublist.refl _, rfl, .inl ⟨rfl, rfl⟩⟩
  | stopped guard freed =>
    unfold step
    dsimp only
    split_ifs
    · exact ⟨List.erase_sublist, rfl, .inl ⟨rfl, rfl⟩⟩
    · exact ⟨List.erase_sublist, rfl, .inl ⟨rfl, rfl⟩⟩
    · exact ⟨List.Sublist.refl _, rfl, .inl ⟨rfl, rfl⟩⟩
  | deed guard deed =>
    obtain ⟨hnext, hslot⟩ := deed.cells_slot guard s.cells
    unfold step
    dsimp only
    split_ifs
    · cases deed with
      | drop => exact ⟨List.erase_sublist, hnext, hslot⟩
      | recordFailure now => exact ⟨List.Sublist.refl _, hnext, hslot⟩
      | store rt => exact ⟨List.Sublist.refl _, hnext, hslot⟩
      | settleWindow now degraded jitter => exact ⟨List.Sublist.refl _, hnext, hslot⟩
      | rebuildFailed now cause jitter => exact ⟨List.Sublist.refl _, hnext, hslot⟩
      | settleBackend now answered => exact ⟨List.Sublist.refl _, hnext, hslot⟩
    · exact ⟨List.Sublist.refl _, rfl, .inl ⟨rfl, rfl⟩⟩

theorem Sound.acquire (h : Sound count s) (hcount : count + 1 < 2 ^ 64) (now : ℕ) :
    Sound (count + 1) (s.step (.acquire now)) ∧
      ∀ guard, Superseded guard s → Superseded guard (s.step (.acquire now)) := by
  have hfresh := h.freshOwner_eq hcount
  rcases tryAcquire_cases s.tokens s.allocated now s.cells with ⟨_, htry⟩ | ⟨_, dirty, htry⟩
  · simp only [step, htry]
    exact ⟨h.mono (Nat.le_succ count), fun _ hguard => hguard⟩
  · simp only [step, htry]
    refine ⟨⟨?_, ?_, ?_, nofun⟩, fun guard hguard => ⟨⟨hguard.issued.1, ?_⟩, ?_⟩⟩
    · change s.cells.freshOwner ≤ count + 1
      rw [hfresh]
      exact Nat.succ_le_succ h.issued
    · intro guard hguard
      change 1 ≤ guard.owner ∧ guard.owner ≤ s.cells.freshOwner
      rcases List.mem_cons.mp hguard with rfl | hguard
      · exact ⟨Nat.le_max_right _ _, Nat.le_refl _⟩
      · have := h.held guard hguard
        omega
    · rw [List.map_cons, List.nodup_cons]
      refine ⟨fun hmem => ?_, h.distinct⟩
      obtain ⟨guard, hguard, howner⟩ := List.mem_map.mp hmem
      have := (h.held guard hguard).2
      change guard.owner = s.cells.freshOwner at howner
      omega
    · change guard.owner ≤ s.cells.freshOwner
      have := hguard.issued.2
      omega
    · change s.cells.freshOwner ≠ guard.owner
      have := hguard.issued.2
      omega

/-- Every state that is reached is sound, and a guard that is superseded stays so. -/
theorem Sound.run (h : Sound count s) (events : List (Event Rt))
    (hcount : count + acquisitions events < 2 ^ 64) :
    Sound (count + acquisitions events) (s.run events) ∧
      ∀ guard, Superseded guard s → Superseded guard (s.run events) := by
  induction events generalizing s count with
  | nil => exact ⟨h, fun _ hguard => hguard⟩
  | cons event events ih =>
    by_cases hevent : ∃ now, event = .acquire now
    · obtain ⟨now, rfl⟩ := hevent
      have hcons : acquisitions (.acquire now :: events) = acquisitions events + 1 :=
        List.countP_cons_of_pos rfl
      rw [hcons] at hcount ⊢
      obtain ⟨hstep, hguards⟩ := h.acquire (by omega) now
      obtain ⟨hrun, hlater⟩ := ih hstep (by omega)
      have hsum : count + (acquisitions events + 1) = count + 1 + acquisitions events := by omega
      exact ⟨hsum ▸ hrun, fun guard hguard => hlater guard (hguards guard hguard)⟩
    · have hother : ∀ now, event ≠ .acquire now := fun now hnow => hevent ⟨now, hnow⟩
      have hcons : acquisitions (event :: events) = acquisitions events := by
        refine List.countP_cons_of_neg ?_
        cases event with
        | acquire now => exact absurd rfl (hother now)
        | _ => exact nofun
      rw [hcons] at hcount ⊢
      have hquiet : Quiet s (s.step event) := quiet_step hother
      obtain ⟨hrun, hlater⟩ := ih (h.keep hquiet.guards hquiet.next hquiet.slot) hcount
      exact ⟨hrun, fun guard hguard => hlater guard (hguard.keep hquiet.next hquiet.slot)⟩

/-- A held guard that does not own the slot is superseded. -/
theorem Sound.superseded (h : Sound count s) (hguard : guard ∈ s.guards)
    (hcurrent : s.cells.isCurrent guard = false) : Superseded guard s where
  issued := h.held guard hguard
  ne_owner := by
    intro howner
    have hbuilding : s.cells.building = false := by
      simpa [Cells.isCurrent, howner] using hcurrent
    have := h.free hbuilding
    have := (h.held guard hguard).1
    omega

end Isolate

/-- At most one request owns the slot of an isolate. A request that has lost it never has it again,
and leaves nothing behind from then on: no runtime, no failure, no retry window, no finding about
the backend, and the slot of its successor as it is. A request gets the slot exactly where those
that wait see it as inactive. -/
theorem single_flight {Rt : Type} (events later : List (Event Rt))
    (hcount : acquisitions (events ++ later) < 2 ^ 64) :
    let s := Isolate.fresh.run events
    let t := Isolate.fresh.run (events ++ later)
    (∀ guard ∈ s.guards, ∀ other ∈ s.guards, s.cells.isCurrent guard → s.cells.isCurrent other →
      guard = other) ∧
    (∀ guard ∈ s.guards, s.cells.isCurrent guard = false →
      t.cells.isCurrent guard = false ∧ ∀ deed : Deed Rt, deed.cells guard t.cells = t.cells) ∧
    ∀ now, (s.cells.tryAcquire s.tokens s.allocated now).1.isSome ↔
      s.cells.slotActive s.tokens now = false := by
  intro s t
  have happend : acquisitions (events ++ later) = acquisitions events + acquisitions later :=
    List.countP_append
  rw [happend] at hcount
  obtain ⟨hsound, _⟩ := Isolate.sound_fresh.run events (by omega)
  have ht : t = s.run later := List.foldl_append
  refine ⟨fun guard hguard other hother hcurrent hcurrent' => ?_,
    fun guard hguard hcurrent => ?_, fun now => ?_⟩
  · have howner : s.cells.buildOwner = guard.owner := by
      simpa using (Bool.and_eq_true_iff.mp hcurrent).2
    have howner' : s.cells.buildOwner = other.owner := by
      simpa using (Bool.and_eq_true_iff.mp hcurrent').2
    exact List.inj_on_of_nodup_map hsound.distinct hguard hother (howner.symm.trans howner')
  · have hlater := (hsound.run later (by omega)).2 guard
      (hsound.superseded hguard hcurrent)
    rw [ht]
    exact ⟨hlater.isCurrent, fun deed => deed.cells_of_ne hlater.ne_owner⟩
  · rcases tryAcquire_cases s.tokens s.allocated now s.cells with
      ⟨hactive, htry⟩ | ⟨hactive, dirty, htry⟩
    · rw [htry, hactive]
      simp
    · rw [htry, hactive]
      simp

/-- An owner that outlived its lease, and the runtime of the owner after it. -/
theorem single_flight_outlived :
    let events : List (Event ℕ) := [.acquire 100, .acquire 10100]
    let later : List (Event ℕ) := [.deed ⟨2, 1⟩ (.store 7), .deed ⟨1, 0⟩ (.store 8)]
    (Isolate.fresh.run (events ++ later)).cells.runtime = some 7 ∧
      ∀ deed : Deed ℕ, deed.cells ⟨1, 0⟩ (Isolate.fresh.run (events ++ later)).cells =
        (Isolate.fresh.run (events ++ later)).cells :=
  ⟨by decide, ((single_flight [.acquire 100, .acquire 10100]
    [.deed ⟨2, 1⟩ (.store 7), .deed ⟨1, 0⟩ (.store 8)] (by decide)).2.1 ⟨1, 0⟩ (by decide)
      (by decide)).2⟩

end RuntimeCache
