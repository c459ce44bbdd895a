import Impresspress.Checked.Arithmetic
import Mathlib.Algebra.BigOperators.Group.List.Basic
import Mathlib.Data.List.Forall2

/-!
# Computations over lists that may fail

A computation that goes through a list stops at the first element that it fails at. Where it succeeds,
it has gone through all of them.

## Main results

* `Checked.mapM_eq_ok`: a list is mapped element by element.
* `Checked.foldlM_induction`, `Checked.foldlM_sum`, `Checked.foldlM_forall`: what each step keeps,
  what each step adds, and what each step brings about.
-/

namespace Checked

variable {ε α β σ M : Type}

theorem mapM_eq_ok {f : α → Except ε β} {list : List α} {results : List β} :
    list.mapM f = .ok results ↔ List.Forall₂ (fun a b => f a = .ok b) list results := by
  induction list generalizing results with
  | nil =>
    rw [List.mapM_nil, List.forall₂_nil_left_iff]
    exact ⟨fun h => (Except.ok.inj h).symm, fun h => h ▸ rfl⟩
  | cons a list ih =>
    rw [List.mapM_cons, List.forall₂_cons_left_iff]
    constructor
    · intro h
      obtain ⟨b, hb, h⟩ := bind_eq_ok.mp h
      obtain ⟨rest, hrest, h⟩ := bind_eq_ok.mp h
      exact ⟨b, rest, hb, ih.mp hrest, (Except.ok.inj h).symm⟩
    · rintro ⟨b, rest, hb, hrest, rfl⟩
      exact bind_eq_ok.mpr ⟨b, hb, bind_eq_ok.mpr ⟨rest, ih.mpr hrest, rfl⟩⟩

/-- What each step keeps holds in the end. -/
theorem foldlM_induction {step : σ → α → Except ε σ} {motive : σ → Prop} {list : List α}
    (hstep : ∀ a ∈ list, ∀ s s', motive s → step s a = .ok s' → motive s') {s s' : σ}
    (hs : motive s) (h : list.foldlM step s = .ok s') : motive s' := by
  induction list generalizing s with
  | nil => exact Except.ok.inj h ▸ hs
  | cons a list ih =>
    rw [List.foldlM_cons] at h
    obtain ⟨next, hnext, h⟩ := bind_eq_ok.mp h
    exact ih (fun b hb => hstep b (List.mem_cons_of_mem a hb))
      (hstep a List.mem_cons_self s next hs hnext) h

/-- What each step adds is added in the end. -/
theorem foldlM_sum [AddCommMonoid M] {step : σ → α → Except ε σ} (measure : σ → M)
    (weight : α → M) {list : List α}
    (hstep : ∀ a ∈ list, ∀ s s', step s a = .ok s' → measure s' = measure s + weight a) {s s' : σ}
    (h : list.foldlM step s = .ok s') : measure s' = measure s + (list.map weight).sum := by
  induction list generalizing s with
  | nil =>
    rw [Except.ok.inj h, List.map_nil, List.sum_nil, add_zero]
  | cons a list ih =>
    rw [List.foldlM_cons] at h
    obtain ⟨next, hnext, h⟩ := bind_eq_ok.mp h
    rw [ih (fun b hb => hstep b (List.mem_cons_of_mem a hb)) h,
      hstep a List.mem_cons_self s next hnext, List.map_cons, List.sum_cons, add_assoc]

/-- What each step brings about, and the other steps keep, holds of every element in the end. -/
theorem foldlM_forall {step : σ → α → Except ε σ} {motive : α → σ → Prop} {list : List α}
    (hstep : ∀ a s s', step s a = .ok s' → motive a s')
    (hkeep : ∀ a b s s', motive a s → step s b = .ok s' → motive a s') {s s' : σ}
    (h : list.foldlM step s = .ok s') : ∀ a ∈ list, motive a s' := by
  induction list generalizing s with
  | nil => exact List.forall_mem_nil _
  | cons a list ih =>
    rw [List.foldlM_cons] at h
    obtain ⟨next, hnext, h⟩ := bind_eq_ok.mp h
    refine List.forall_mem_cons.mpr ⟨?_, ih h⟩
    exact foldlM_induction (fun b _ s s' hs => hkeep a b s s' hs) (hstep a s next hnext) h

/-- What follows of pairs of members. -/
theorem forall₂_flip {R : α → β → Prop} {S : β → α → Prop} {list : List α} {results : List β}
    (h : List.Forall₂ R list results) (himp : ∀ a ∈ list, ∀ b ∈ results, R a b → S b a) :
    List.Forall₂ S results list := by
  induction h with
  | nil => exact .nil
  | cons hhead _ ih =>
    refine .cons (himp _ List.mem_cons_self _ List.mem_cons_self hhead) (ih fun a ha b hb => ?_)
    exact himp a (List.mem_cons_of_mem _ ha) b (List.mem_cons_of_mem _ hb)

/-- Lists whose members correspond by a value have the same values. -/
theorem map_eq_of_forall₂ {f : α → σ} {g : β → σ} {list : List α} {results : List β}
    (h : List.Forall₂ (fun a b => f a = g b) list results) : list.map f = results.map g := by
  have hmap := List.forall₂_map_left_iff.mpr (List.forall₂_map_right_iff.mpr h)
  rwa [List.forall₂_eq_eq_eq] at hmap

end Checked
