import Impresspress.Concurrent.Pool

/-!
# Fresh tokens

Programs draw tokens from a counter of the store, and a program uses a token right after it has
drawn it. Then no token is used twice, whatever the programs do in between.

## Main definitions

* `Concurrent.Counter`: drawing takes the next token of a counter that only grows.
* `Concurrent.Fresh`: the tokens of a history are used once.

## Main results

* `Concurrent.fresh_of_along`: tokens that are used when they have just been drawn are fresh.
-/

namespace Concurrent

variable {ι Store Chance Call : Type} {Answer : Call → Type}

/-- A draw takes the next token of a counter that no call turns back. -/
structure Counter (perform : Chance → (c : Call) → Store → Answer c × Store) (next : Store → ℕ)
    (draw : Moment ι Store Answer → Option ℕ) : Prop where
  grows : ∀ m : Moment ι Store Answer, m.Happened perform → next m.before ≤ next m.after
  draws : ∀ (m : Moment ι Store Answer) token, m.Happened perform → draw m = some token →
    token = next m.before ∧ token < next m.after

/-- The token that a program has drawn last, and nothing since. -/
def unused (draw : Moment ι Store Answer → Option ℕ) (own : History ι Store Answer) : Option ℕ :=
  own.head?.bind draw

variable [DecidableEq ι]

/-- The tokens used in a history are pairwise different and newer than its start, and a token that
a program is about to use is newer still. -/
structure Fresh (next : Store → ℕ) (draw use : Moment ι Store Answer → Option ℕ) (start : Store)
    (past : History ι Store Answer) : Prop where
  used : ∀ token ∈ past.filterMap use, next start ≤ token ∧ token < next (past.store start)
  distinct : (past.filterMap use).Nodup
  held : ∀ i token, unused draw (History.own i past) = some token →
    next start ≤ token ∧ token < next (past.store start) ∧ token ∉ past.filterMap use
  apart : ∀ i j token, unused draw (History.own i past) = some token →
    unused draw (History.own j past) = some token → i = j

variable {perform : Chance → (c : Call) → Store → Answer c × Store} {next : Store → ℕ}
  {draw use : Moment ι Store Answer → Option ℕ} {start : Store}

theorem unused_cons_self (m : Moment ι Store Answer) (past : History ι Store Answer) :
    unused draw (History.own m.proc (m :: past)) = draw m := by
  rw [History.own_cons_self rfl]
  rfl

omit [DecidableEq ι] in
theorem start_le_next (hcounter : Counter perform next draw) {past : History ι Store Answer}
    (h : Along (fun past m => m.before = past.store start ∧ m.Happened perform) past) :
    next start ≤ next (past.store start) := by
  induction past with
  | nil => exact Nat.le_refl _
  | cons m past ih =>
    have hstep := hcounter.grows m h.1.2
    rw [h.1.1] at hstep
    exact Nat.le_trans (ih h.2) hstep

private theorem Fresh.step {past : History ι Store Answer} {m : Moment ι Store Answer}
    (hfresh : Fresh next draw use start past) (hcounter : Counter perform next draw)
    (hstart : next start ≤ next (past.store start)) (hbefore : m.before = past.store start)
    (hm : m.Happened perform)
    (huse : ∀ token, use m = some token → unused draw (History.own m.proc past) = some token) :
    Fresh next draw use start (m :: past) := by
  have hgrows := hcounter.grows m hm
  rw [hbefore] at hgrows
  have hold : ∀ token ∈ (m :: past).filterMap use,
      next start ≤ token ∧ token < next (past.store start) := by
    intro token htoken
    cases hcase : use m with
    | none =>
      rw [List.filterMap_cons_none hcase] at htoken
      exact hfresh.used token htoken
    | some token' =>
      rw [List.filterMap_cons_some hcase] at htoken
      rcases List.mem_cons.mp htoken with rfl | htoken
      · have hheld := hfresh.held _ _ (huse _ hcase)
        exact ⟨hheld.1, hheld.2.1⟩
      · exact hfresh.used token htoken
  -- a token that has just been drawn is newer than all others
  have hdrawn : ∀ token, draw m = some token →
      next start ≤ token ∧ next (past.store start) ≤ token ∧ token < next m.after := by
    intro token hdraw
    obtain ⟨htoken, hlt⟩ := hcounter.draws m token hm hdraw
    rw [hbefore] at htoken
    exact ⟨htoken ▸ hstart, Nat.le_of_eq htoken.symm, hlt⟩
  have hcarried : ∀ i token, i ≠ m.proc → unused draw (History.own i (m :: past)) = some token →
      unused draw (History.own i past) = some token := by
    intro i token hne h
    rwa [History.own_cons_of_ne (Ne.symm hne)] at h
  refine ⟨fun token htoken => ?_, ?_, fun i token h => ?_, fun i j token hi hj => ?_⟩
  · have hbounds := hold token htoken
    exact ⟨hbounds.1, Nat.lt_of_lt_of_le hbounds.2 hgrows⟩
  · cases hcase : use m with
    | none =>
      rw [List.filterMap_cons_none hcase]
      exact hfresh.distinct
    | some token =>
      rw [List.filterMap_cons_some hcase]
      exact List.nodup_cons.mpr ⟨(hfresh.held _ _ (huse _ hcase)).2.2, hfresh.distinct⟩
  · by_cases hi : i = m.proc
    · subst hi
      rw [unused_cons_self] at h
      obtain ⟨hstart', hle, hlt⟩ := hdrawn token h
      exact ⟨hstart', hlt, fun hmem => absurd (hold token hmem).2 (Nat.not_lt_of_le hle)⟩
    · have hmine := hcarried i token hi h
      obtain ⟨hstart', hlt, hnot⟩ := hfresh.held i token hmine
      refine ⟨hstart', Nat.lt_of_lt_of_le hlt hgrows, fun hmem => ?_⟩
      cases hcase : use m with
      | none =>
        rw [List.filterMap_cons_none hcase] at hmem
        exact hnot hmem
      | some token' =>
        rw [List.filterMap_cons_some hcase] at hmem
        rcases List.mem_cons.mp hmem with rfl | hmem
        · exact hi (hfresh.apart i m.proc token hmine (huse _ hcase))
        · exact hnot hmem
  · have hclash : ∀ k, k ≠ m.proc → unused draw (History.own k (m :: past)) = some token →
        draw m = some token → False := by
      intro k hk h hdraw
      have hlt := (hfresh.held k token (hcarried k token hk h)).2.1
      exact absurd hlt (Nat.not_lt_of_le (hdrawn token hdraw).2.1)
    by_cases him : i = m.proc <;> by_cases hjm : j = m.proc
    · rw [him, hjm]
    · rw [him, unused_cons_self] at hi
      exact (hclash j hjm hj hi).elim
    · rw [hjm, unused_cons_self] at hj
      exact (hclash i him hi hj).elim
    · exact hfresh.apart i j token (hcarried i token him hi) (hcarried j token hjm hj)

/-- Tokens that are used when they have just been drawn are used once. -/
theorem fresh_of_along (hcounter : Counter perform next draw) {past : History ι Store Answer}
    (h : Along (fun past m => m.before = past.store start ∧ m.Happened perform) past)
    (huse : Along (fun past m => ∀ token, use m = some token →
      unused draw (History.own m.proc past) = some token) past) :
    Fresh next draw use start past := by
  induction past with
  | nil => exact ⟨nofun, List.Pairwise.nil, nofun, nofun⟩
  | cons m past ih =>
    exact (ih h.2 huse.2).step hcounter (start_le_next hcounter h.2) h.1.1 h.1.2 huse.1

end Concurrent
