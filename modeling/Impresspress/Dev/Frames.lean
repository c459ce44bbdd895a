import Impresspress.Dev.Locks

/-!
# What a call leaves alone

Each call writes one part of the store at most. The calls made so far are kept beside the store, so
that what a run did can be asked of the place where it stands.

## Main definitions

* `Dev.Part`, `Dev.DevCall.part`: the parts of the store, and which one a call writes.
* `Dev.Watched`, `Dev.watched`: the store with the calls made so far.
* `Dev.watchedLocks`: its locks; a row id that was handed out is held by the program that drew it.

## Main results

* `Dev.untouched_perform`: a call leaves the other parts alone.
-/

namespace Dev

open Concurrent Concurrent.Contract

/-- The parts of the store that content is looked up in. -/
inductive Part
  | generations
  | journal
  | builds
  | blobs
  | artifacts
  | workspace
  deriving DecidableEq

/-- The part that a call writes. -/
def DevCall.part : DevCall → Option Part
  | .insertGeneration _ | .setStatus .. | .deleteMany _ => some .generations
  | .writeState _ => some .journal
  | .insertBuild _ | .setBuildStatus .. | .deleteBuild _ | .deleteForArtifact _ => some .builds
  | .putBlob .. | .deleteBlob _ => some .blobs
  | .putArtifact .. | .deleteArtifact _ => some .artifacts
  | .saveWorkspace _ => some .workspace
  | _ => none

/-- Every part but `part` is as it was. -/
structure Untouched (part : Option Part) (s s' : DevStore) : Prop where
  generations : part ≠ some .generations → s'.generations = s.generations
  journal : part ≠ some .journal → s'.journal = s.journal
  builds : part ≠ some .builds → s'.builds = s.builds
  blobs : part ≠ some .blobs → s'.blobs = s.blobs
  artifacts : part ≠ some .artifacts → s'.artifacts = s.artifacts
  workspace : part ≠ some .workspace → s'.workspace = s.workspace

theorem Untouched.refl (part : Option Part) (s : DevStore) : Untouched part s s :=
  ⟨fun _ => rfl, fun _ => rfl, fun _ => rfl, fun _ => rfl, fun _ => rfl, fun _ => rfl⟩

theorem untouched_answer (chance : Chance) (c : DevCall) (s : DevStore) :
    Untouched c.part s (answer chance c s).2 := by
  cases c <;> simp only [answer] <;> try split
  all_goals
    constructor <;> intro h <;> first | rfl | exact absurd rfl h

/-- A call leaves the parts alone that it does not write. -/
theorem untouched_perform (chance : Chance) (c : DevCall) (s : DevStore) :
    Untouched c.part s (perform chance c s).2 := by
  unfold perform
  dsimp only
  split
  · exact ⟨fun _ => rfl, fun _ => rfl, fun _ => rfl, fun _ => rfl, fun _ => rfl, fun _ => rfl⟩
  · have h := untouched_answer chance c (s.after chance.elapsed)
    exact ⟨h.generations, h.journal, h.builds, h.blobs, h.artifacts, h.workspace⟩

/-! ## The store with its past -/

/-- The store with the calls made so far, the latest first. -/
abbrev Watched := DevStore × List DevCall

def watched : Chance → (c : DevCall) → Watched → Outcome ActivationError Reply c × Watched :=
  logged perform fun c _ => some c

@[simp] theorem watched_fst (chance : Chance) (c : DevCall) (s : Watched) :
    (watched chance c s).1 = (perform chance c s.1).1 := rfl

@[simp] theorem watched_snd (chance : Chance) (c : DevCall) (s : Watched) :
    (watched chance c s).2 = ((perform chance c s.1).2, c :: s.2) := rfl

/-- The lock that a call takes or releases; a row id counts as taken by the call that drew it. -/
def DevCall.watchedEffect : (c : DevCall) → Outcome ActivationError Reply c →
    Option ((Lock ⊕ ℕ) × Bool)
  | .lock l, _ => some (.inl l, true)
  | .unlock l, _ => some (.inl l, false)
  | .insertBuild _, .ok row => some (.inr row.id, true)
  | .newId, .ok id => some (.inr id, true)
  | _, _ => none

def Watched.held (s : Watched) : Lock ⊕ ℕ → Bool
  | .inl lock => s.1.held lock
  | .inr id => decide (id ∈ s.1.ids)

/-- Drawing an id takes it. -/
theorem held_drawn (s : Watched) (drawn : ℕ) (l : Lock ⊕ ℕ) :
    Watched.held ({ s.1 with ids := drawn :: s.1.ids }, s.2) l =
      if l = .inr drawn then true else s.held l := by
  cases l with
  | inl lock => rfl
  | inr id =>
    by_cases hid : id = drawn
    · simp [Watched.held, hid]
    · simp [Watched.held, hid]

theorem held_watched (chance : Chance) (c : DevCall) (s : Watched) (l : Lock ⊕ ℕ) :
    (watched chance c s).2.held l =
      match c.watchedEffect (watched chance c s).1 with
      | some (l', taken) => if l = l' then taken else s.held l
      | none => s.held l := by
  rw [watched_fst, watched_snd]
  unfold perform
  dsimp only
  split
  · rename_i hfails
    cases c with
    | lock _ | unlock _ | newId => cases hfails
    | _ => cases l <;> rfl
  cases c with
  | lock lock | unlock lock =>
    cases l with
    | inl l => simp [answer, DevCall.watchedEffect, Watched.held]
    | inr id => simp [answer, DevCall.watchedEffect, Watched.held]
  | newId => exact held_drawn s _ l
  | insertBuild new =>
    simp only [answer]
    split
    · exact held_drawn s _ l
    · cases l <;> rfl
  | _ =>
    simp only [answer]
    first
      | (cases l <;> rfl)
      | (split <;> cases l <;> rfl)

def watchedLocks : Locks (Lock ⊕ ℕ) watched where
  effect := DevCall.watchedEffect
  held := Watched.held
  held_perform := fun chance c s l => by
    rw [held_watched]
    cases c.watchedEffect (watched chance c s).1 with
    | none => rfl
    | some e => rfl

end Dev
