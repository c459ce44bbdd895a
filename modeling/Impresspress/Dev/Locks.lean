import Impresspress.Concurrent.Assertions
import Impresspress.Dev.Store

/-!
# The locks of the sandbox

## Main definitions

* `Dev.sandboxLocks`: the locks, and the calls that take and release them.

## Main results

* `Dev.Stands.leads_holding`: a program under a lock.
-/

namespace Dev

open Concurrent Concurrent.Contract

/-- The lock that a call takes or releases. -/
def DevCall.lockEffect : DevCall → Option (Lock × Bool)
  | .lock l => some (l, true)
  | .unlock l => some (l, false)
  | _ => none

theorem held_perform_lock (chance : Chance) (lock : Lock) (taken : Bool) (s : DevStore)
    (c : DevCall) (hc : c.lockEffect = some (lock, taken)) (l : Lock) :
    (perform chance c s).2.held l = if l = lock then taken else s.held l := by
  cases c with
  | lock _ | unlock _ =>
    cases hc
    rfl
  | _ => cases hc

theorem held_perform_of_none {c : DevCall} (hc : c.lockEffect = none) (chance : Chance)
    (s : DevStore) : (perform chance c s).2.held = s.held := by
  unfold perform
  dsimp only
  split
  · rfl
  cases c with
  | lock _ | unlock _ => cases hc
  | _ =>
    simp only [answer] <;>
      first
        | rfl
        | split <;> rfl

def sandboxLocks : Locks Lock perform where
  effect := fun c _ => c.lockEffect
  held := fun s => s.held
  held_perform := fun chance c s l => by
    cases hc : c.lockEffect with
    | none => rw [held_perform_of_none hc]
    | some e => exact held_perform_lock chance e.1 e.2 s c hc l

section Holding

variable {L S : Type} [DecidableEq L]
  {perform' : Chance → (c : DevCall) → S → Outcome ActivationError Reply c × S}
  {locks : Locks L perform'} {C : Contract locks} {mine : L → Bool} {α : Type}

/-- The calls on a lock of the sandbox take and release `l`, and do not fail. -/
structure Stands (locks : Locks L perform') (lock : Lock) (l : L) : Prop where
  takes : ∀ answer, locks.effect (.lock lock) answer = some (l, true)
  releases : ∀ answer, locks.effect (.unlock lock) answer = some (l, false)
  locked : ∀ chance s, (perform' chance (.lock lock) s).1 = .ok ()
  unlocked : ∀ chance s, (perform' chance (.unlock lock) s).1 = .ok ()

namespace Stands

variable {lock : Lock} {l : L} (h : Stands locks lock l)

include h

theorem next_lock (mine : L → Bool) (answer : Outcome ActivationError Reply (.lock lock)) :
    locks.next mine (.lock lock) answer = Function.update mine l true := by
  funext l'
  by_cases hl : l' = l
  · simp [Locks.next, h.takes, hl]
  · simp [Locks.next, h.takes, hl]

theorem next_unlock (hfree : mine l = false)
    (answer : Outcome ActivationError Reply (.unlock lock)) :
    locks.next (Function.update mine l true) (.unlock lock) answer = mine := by
  funext l'
  by_cases hl : l' = l
  · simp [Locks.next, h.releases, hl, hfree]
  · simp [Locks.next, h.releases, hl]

/-- The release of a lock, after which the result of what ran under it is returned. -/
theorem leads_unlock {R : S → Prop} (result : Except ActivationError α) {Q' : α → S → Prop}
    {E : ActivationError → S → Prop} (hfree : mine l = false)
    (hR : C.Stable (Function.update mine l true) R) (hQ' : ∀ a, C.Stable mine (Q' a))
    (hE : ∀ e, C.Stable mine (E e))
    (hunlock : C.Calls (Function.update mine l true) R (.unlock lock)
      fun _ => Outcomes Q' E result) {s : S} (hs : R s) :
    C.Withstands (Function.update mine l true)
      (do
        call (.unlock lock)
        ExceptT.mk (pure result) : Task α).run s
      fun mine' result s' => mine' = mine ∧ Outcomes Q' E result s' := by
  intro s' hat
  obtain ⟨howned, hrest⟩ := hunlock s' ⟨hR s s' hs hat, hat.keeps, hat.held⟩
  refine ⟨howned, fun chance hadmits hfree' => ?_⟩
  obtain ⟨hkeeps, hdone⟩ := hrest chance hadmits hfree'
  refine ⟨hkeeps, ?_⟩
  rw [h.next_unlock hfree, h.unlocked]
  intro s'' hat''
  refine ⟨rfl, ?_⟩
  cases result with
  | ok a => exact hQ' a _ _ hdone hat''
  | error e => exact hE e _ _ hdone hat''

/-- A program under a lock. -/
theorem leads_holding {p : Task α} {Q R : S → Prop} {M : α → S → Prop}
    {F : ActivationError → S → Prop} {Q' : α → S → Prop} {E : ActivationError → S → Prop}
    (hfree : mine l = false) (hQ : C.Stable mine Q) (hQ' : ∀ a, C.Stable mine (Q' a))
    (hE : ∀ e, C.Stable mine (E e))
    (hM : ∀ a, C.Stable (Function.update mine l true) (M a))
    (hF : ∀ e, C.Stable (Function.update mine l true) (F e))
    (hlock : C.Calls mine Q (.lock lock) fun _ => R)
    (hp : C.Leads (Function.update mine l true) R p M F)
    (hok : ∀ a, C.Calls (Function.update mine l true) (M a) (.unlock lock) fun _ => Q' a)
    (herror : ∀ e, C.Calls (Function.update mine l true) (F e) (.unlock lock) fun _ => E e) :
    C.Leads mine Q (holding lock p) Q' E := by
  intro s hs s' hat
  obtain ⟨howned, hrest⟩ := hlock s' ⟨hQ s s' hs hat, hat.keeps, hat.held⟩
  refine ⟨howned, fun chance hadmits hlockFree => ?_⟩
  obtain ⟨hkeeps, hR⟩ := hrest chance hadmits hlockFree
  refine ⟨hkeeps, ?_⟩
  rw [h.next_lock, h.locked]
  change C.Withstands _ (Fallible.attempt p >>= _) _ _
  refine Withstands.bind (Withstands.bind ((hp _ hR).mono fun mine' result s₁ hpost => ?_))
  intro s₂ hat₂
  cases result with
  | ok a =>
    obtain ⟨rfl, hMa⟩ := hpost
    exact h.leads_unlock (.ok a) hfree (hM a) hQ' hE (hok a) (hM a _ _ hMa hat₂)
  | error e =>
    obtain ⟨rfl, hFe⟩ := hpost
    exact h.leads_unlock (.error e) hfree (hF e) hQ' hE (herror e) (hF e _ _ hFe hat₂)

end Stands

end Holding

theorem sandboxLocks_stands (lock : Lock) : Stands sandboxLocks lock lock :=
  ⟨fun _ => rfl, fun _ => rfl, fun _ _ => rfl, fun _ _ => rfl⟩

end Dev
