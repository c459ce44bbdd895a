import Mathlib.Data.List.Induction
import Mathlib.Data.Prod.Lex
import Mathlib.Order.Bounds.Basic
import Mathlib.Algebra.Order.Ring.Int
import Impresspress.Products.Repo

/-!
# Delivery order of subscription events

A subscription projection keeps a status and the creation time of the event it came from.
Folding events into it with `subscriptionTransitionAllowed` computes a maximum: the order is
lexicographic in the creation time and the rank of the status. The guard on terminal statuses
departs from that maximum only for a live event younger than a terminal one, so without such
an event the deliveries may come in any order.

## Main results

* `Products.SubscriptionProjection.key_apply`: one event moves the projection to the maximum.
* `Products.SubscriptionProjection.foldl_apply_confluent`: every delivery order ends alike.
-/

namespace Products

/-- A status with the creation time of the event that carried it: both a delivered event and
the projection stored for its subscription. -/
structure SubscriptionProjection where
  status : SubscriptionStatus
  eventCreated : ℤ
  deriving DecidableEq, Repr

namespace SubscriptionProjection

/-- The projection of a subscription that no event has reached. -/
def initial : SubscriptionProjection := ⟨.unset, 0⟩

/-- Store an event when the transition is allowed, and keep the projection otherwise. -/
def apply (current incoming : SubscriptionProjection) : SubscriptionProjection :=
  if subscriptionTransitionAllowed current.status current.eventCreated
      incoming.status incoming.eventCreated then incoming else current

/-- What the rule orders by: creation time first, then the rank of the status. -/
def key (p : SubscriptionProjection) : ℤ ×ₗ ℕ := toLex (p.eventCreated, p.status.rank)

theorem key_le_key {p q : SubscriptionProjection} : p.key ≤ q.key ↔
    p.eventCreated < q.eventCreated ∨
      p.eventCreated = q.eventCreated ∧ p.status.rank ≤ q.status.rank :=
  Prod.Lex.toLex_le_toLex

theorem apply_eq_or (p e : SubscriptionProjection) : p.apply e = e ∨ p.apply e = p := by
  unfold apply
  split <;> simp

/-- An event whose key is smaller is never stored. -/
theorem apply_of_key_lt {p e : SubscriptionProjection} (h : e.key < p.key) : p.apply e = p := by
  rw [← not_le, key_le_key, not_or, not_lt, not_and, not_le] at h
  obtain ⟨hcreated, hrank⟩ := h
  have hnot : subscriptionTransitionAllowed p.status p.eventCreated e.status e.eventCreated
      = false := by
    unfold subscriptionTransitionAllowed
    rcases lt_or_eq_of_le hcreated with hlt | heq
    · rw [if_pos hlt]
    · rw [if_neg (by omega)]
      split
      · rfl
      · rw [if_pos (by simp [heq, hrank heq.symm])]
  simp [apply, hnot]

/-- An event whose key is not smaller is stored, unless it is live and the projection is
terminal. -/
theorem apply_of_key_le {p e : SubscriptionProjection} (h : p.key ≤ e.key)
    (hterminal : p.status.isTerminal → e.status.isTerminal) : p.apply e = e := by
  have hallowed : subscriptionTransitionAllowed p.status p.eventCreated e.status e.eventCreated
      = true := by
    unfold subscriptionTransitionAllowed
    rw [key_le_key] at h
    rw [if_neg (by omega), if_neg (by simpa using hterminal), if_neg]
    simp only [Bool.and_eq_true, beq_iff_eq, decide_eq_true_eq, not_and, not_lt]
    intro heq
    rcases h with h | h
    · omega
    · exact h.2
  simp [apply, hallowed]

/-- One event moves the projection to the maximum of the two keys, provided that no live event
is younger than a terminal projection. -/
theorem key_apply {p e : SubscriptionProjection}
    (hterminal : p.status.isTerminal → ¬ e.status.isTerminal → e.eventCreated ≤ p.eventCreated) :
    (p.apply e).key = max p.key e.key := by
  by_cases hlt : e.key < p.key
  · rw [apply_of_key_lt hlt, max_eq_left hlt.le]
  · have hle : p.key ≤ e.key := not_lt.mp hlt
    rw [max_eq_right hle, apply_of_key_le hle]
    intro hp
    by_contra he
    -- a live event that outranks a terminal projection would have to be younger
    have hcreated := hterminal hp he
    have hrank : e.status.rank ≠ 2 := fun hr => he (SubscriptionStatus.isTerminal_iff_rank.mpr hr)
    have hp2 := SubscriptionStatus.isTerminal_iff_rank.mp hp
    have he2 := e.status.rank_le_two
    rw [key_le_key] at hle
    omega

/-- Folding leaves one of the events, or what was there before. -/
theorem foldl_apply_eq_or_mem (p : SubscriptionProjection) (events : List SubscriptionProjection) :
    events.foldl apply p = p ∨ events.foldl apply p ∈ events := by
  induction events using List.reverseRecOn with
  | nil => exact Or.inl rfl
  | append_singleton events e ih =>
    rw [List.foldl_append, List.foldl_cons, List.foldl_nil, List.mem_append]
    rcases apply_eq_or (events.foldl apply p) e with h | h
    · exact Or.inr (Or.inr (by rw [h]; exact List.mem_singleton_self e))
    · rw [h]
      exact ih.imp id Or.inl

/-- No event of the list is live and younger than a terminal one. -/
def NoLiveAfterTerminal (events : List SubscriptionProjection) : Prop :=
  ∀ t ∈ events, ∀ e ∈ events, t.status.isTerminal → ¬ e.status.isTerminal →
    e.eventCreated ≤ t.eventCreated

theorem NoLiveAfterTerminal.of_subset {events events' : List SubscriptionProjection}
    (h : NoLiveAfterTerminal events) (hsub : ∀ e ∈ events', e ∈ events) :
    NoLiveAfterTerminal events' :=
  fun t ht e he => h t (hsub t ht) e (hsub e he)

/-- The fold is the maximum of the keys. -/
theorem isGreatest_key_foldl {events : List SubscriptionProjection}
    (h : NoLiveAfterTerminal events) :
    IsGreatest {k | k = initial.key ∨ ∃ e ∈ events, k = e.key}
      (events.foldl apply initial).key := by
  induction events using List.reverseRecOn with
  | nil => exact ⟨Or.inl rfl, by rintro k (rfl | ⟨e, he, -⟩); exacts [le_rfl, by simp at he]⟩
  | append_singleton events e ih =>
    have hevents : NoLiveAfterTerminal events := h.of_subset fun e he => by simp [he]
    have hkey : (apply (events.foldl apply initial) e).key
        = max (events.foldl apply initial).key e.key := by
      refine key_apply fun hp he => ?_
      rcases foldl_apply_eq_or_mem initial events with hinit | hmem
      · rw [hinit] at hp
        exact absurd hp (by decide)
      · exact h _ (by simp [hmem]) e (by simp) hp he
    rw [List.foldl_append, List.foldl_cons, List.foldl_nil, hkey]
    obtain ⟨hmem, hupper⟩ := ih hevents
    constructor
    · rcases max_choice (events.foldl apply initial).key e.key with hmax | hmax
      · rw [hmax]
        exact hmem.imp id fun ⟨e', he', hk⟩ => ⟨e', by simp [he'], hk⟩
      · exact Or.inr ⟨e, by simp, hmax⟩
    · rintro k (rfl | ⟨e', he', rfl⟩)
      · exact le_max_of_le_left (hupper (Or.inl rfl))
      · rcases List.mem_append.mp he' with he' | he'
        · exact le_max_of_le_left (hupper (Or.inr ⟨e', he', rfl⟩))
        · exact le_max_of_le_right (List.mem_singleton.mp he' ▸ le_rfl)

/-- A terminal status survives every event. -/
theorem isTerminal_apply {p : SubscriptionProjection} (h : p.status.isTerminal)
    (e : SubscriptionProjection) : (p.apply e).status.isTerminal := by
  unfold apply
  split
  · next hallowed =>
    by_contra he
    simp [subscriptionTransitionAllowed, h, he] at hallowed
  · exact h

theorem isTerminal_foldl {p : SubscriptionProjection} (h : p.status.isTerminal)
    (events : List SubscriptionProjection) : (events.foldl apply p).status.isTerminal := by
  induction events generalizing p with
  | nil => exact h
  | cons e events ih => exact ih (isTerminal_apply h e)

/-- Events delivered in any two orders leave the same creation time and the same rank, the
lexicographic maximum of both, when no live event is younger than a terminal one; and whatever
has been delivered, a terminal status stays terminal under all further events. -/
theorem foldl_apply_confluent {events events' : List SubscriptionProjection}
    (hperm : events.Perm events')
    (hterminal : ∀ t ∈ events, ∀ e ∈ events, t.status.isTerminal → ¬ e.status.isTerminal →
      e.eventCreated ≤ t.eventCreated) :
    (events.foldl apply initial).eventCreated = (events'.foldl apply initial).eventCreated ∧
    (events.foldl apply initial).status.rank = (events'.foldl apply initial).status.rank ∧
    IsGreatest {k | k = toLex (0, 0) ∨
        ∃ e ∈ events, k = toLex (e.eventCreated, e.status.rank)}
      (toLex ((events.foldl apply initial).eventCreated,
        (events.foldl apply initial).status.rank)) ∧
    ∀ delivered more : List SubscriptionProjection,
      (delivered.foldl apply initial).status.isTerminal →
        ((delivered ++ more).foldl apply initial).status.isTerminal := by
  have hnolive : NoLiveAfterTerminal events := hterminal
  have hgreatest := isGreatest_key_foldl hnolive
  have hgreatest' := isGreatest_key_foldl
    (hnolive.of_subset fun e he => hperm.mem_iff.mpr he)
  have hset : {k | k = initial.key ∨ ∃ e ∈ events', k = e.key}
      = {k | k = initial.key ∨ ∃ e ∈ events, k = e.key} := by
    ext k
    simp only [Set.mem_ofPred_eq, hperm.mem_iff]
  rw [hset] at hgreatest'
  have hkey := hgreatest.unique hgreatest'
  have hpair := Prod.mk.inj (toLex.injective hkey)
  refine ⟨hpair.1, hpair.2, hgreatest, fun delivered more h => ?_⟩
  rw [List.foldl_append]
  exact isTerminal_foldl h more

/-- A cancellation and an update of the same second, delivered in both orders. -/
theorem foldl_apply_confluent_cancel :
    ([⟨.active, 5⟩, ⟨.canceled, 5⟩] : List SubscriptionProjection).foldl apply initial
        = ⟨.canceled, 5⟩ ∧
    (([⟨.active, 5⟩, ⟨.canceled, 5⟩] : List SubscriptionProjection).foldl apply
        initial).status.rank =
      (([⟨.canceled, 5⟩, ⟨.active, 5⟩] : List SubscriptionProjection).foldl apply
        initial).status.rank :=
  ⟨by decide, (foldl_apply_confluent (List.Perm.swap ⟨.canceled, 5⟩ ⟨.active, 5⟩ [])
    (by decide)).2.1⟩

end SubscriptionProjection

end Products
