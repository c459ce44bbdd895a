import Mathlib.Tactic.Common

/-!
# Programs cut at their calls

A handler that shares a store with other handlers is a tree of calls: between two calls it
computes on what it has been answered so far, and at a call the store acts once. A service
says how the store answers a call; what the caller cannot know in advance (elapsed time, a
remote answer) is a `Chance` handed to it at every call.

## Main definitions

* `Concurrent.Program`: the tree, a monad; a single call is `.call c .done`.
* `Concurrent.Program.run`: one program run to its end with nobody else at the store.
* `Concurrent.Program.Ensures`: what holds at the end of every such run.
* `Concurrent.logged`: a store that keeps a log of what its calls do.

## Main results

* `Concurrent.Program.ensures_bind`: sequencing.
* `Concurrent.Program.Ensures.run`: what is ensured holds of each run.
-/

namespace Concurrent

/-- A program over a shared store, cut at its calls. -/
inductive Program (Call : Type) (Answer : Call → Type) (α : Type) where
  | done (a : α)
  | call (c : Call) (next : Answer c → Program Call Answer α)

namespace Program

variable {Call : Type} {Answer : Call → Type} {α β γ : Type}

/-- Run `p`, then the program that its result selects. -/
def bind : Program Call Answer α → (α → Program Call Answer β) → Program Call Answer β
  | done a, f => f a
  | call c next, f => call c fun r => (next r).bind f

instance : Monad (Program Call Answer) where
  pure := done
  bind := bind

@[simp] theorem pure_eq_done (a : α) : (pure a : Program Call Answer α) = done a := rfl

@[simp] theorem bind_done (a : α) (f : α → Program Call Answer β) :
    (done a >>= f) = f a := rfl

@[simp] theorem bind_call (c : Call) (next : Answer c → Program Call Answer α)
    (f : α → Program Call Answer β) :
    (call c next >>= f) = call c fun r => next r >>= f := rfl

private theorem bind_assoc (p : Program Call Answer α) (f : α → Program Call Answer β)
    (g : β → Program Call Answer γ) : p >>= f >>= g = p >>= fun a => f a >>= g := by
  induction p with
  | done a => rfl
  | call c next ih => exact congrArg (call c) (funext ih)

private theorem id_map (p : Program Call Answer α) : id <$> p = p := by
  induction p with
  | done a => rfl
  | call c next ih => exact congrArg (call c) (funext ih)

instance : LawfulMonad (Program Call Answer) :=
  LawfulMonad.mk' _ id_map (fun _ _ => rfl) bind_assoc

variable {Store Chance : Type} (perform : Chance → (c : Call) → Store → Answer c × Store)

/-- Run a program to its end, alone at the store; `chances` are met in order. -/
def run : Program Call Answer α → (ℕ → Chance) → Store → α × Store
  | done a, _, s => (a, s)
  | call c next, chances, s =>
    run (next (perform (chances 0) c s).1) (fun n => chances (n + 1)) (perform (chances 0) c s).2

theorem run_bind_const {perform : Chance → (c : Call) → Store → Answer c × Store}
    (p : Program Call Answer α) (f : α → Program Call Answer β) (chance : Chance) (s : Store) :
    (p >>= f).run perform (fun _ => chance) s =
      (f (p.run perform (fun _ => chance) s).1).run perform (fun _ => chance)
        (p.run perform (fun _ => chance) s).2 := by
  induction p generalizing s with
  | done a => rfl
  | call c next ih => exact ih _ _

/-- `post` holds at the end of every run of the program alone from `s`, whatever the chances. -/
def Ensures : Program Call Answer α → Store → (α → Store → Prop) → Prop
  | done a, s, post => post a s
  | call c next, s, post =>
    ∀ chance, Ensures (next (perform chance c s).1) (perform chance c s).2 post

variable {perform}

@[simp] theorem ensures_done {a : α} {s : Store} {post : α → Store → Prop} :
    Ensures perform (done a : Program Call Answer α) s post ↔ post a s := Iff.rfl

theorem ensures_call {c : Call} {next : Answer c → Program Call Answer α} {s : Store}
    {post : α → Store → Prop} :
    Ensures perform (call c next) s post ↔
      ∀ chance, Ensures perform (next (perform chance c s).1) (perform chance c s).2 post :=
  Iff.rfl

theorem Ensures.mono {p : Program Call Answer α} {s : Store} {post post' : α → Store → Prop}
    (h : Ensures perform p s post) (hpost : ∀ a s, post a s → post' a s) :
    Ensures perform p s post' := by
  induction p generalizing s with
  | done a => exact hpost a s h
  | call c next ih => exact fun chance => ih _ (h chance)

theorem Ensures.and {p : Program Call Answer α} {s : Store} {post post' : α → Store → Prop}
    (h : Ensures perform p s post) (h' : Ensures perform p s post') :
    Ensures perform p s fun a s => post a s ∧ post' a s := by
  induction p generalizing s with
  | done a => exact ⟨h, h'⟩
  | call c next ih => exact fun chance => ih _ (h chance) (h' chance)

theorem ensures_bind {p : Program Call Answer α} {f : α → Program Call Answer β} {s : Store}
    {post : β → Store → Prop} :
    Ensures perform (p >>= f) s post ↔
      Ensures perform p s fun a s' => Ensures perform (f a) s' post := by
  induction p generalizing s with
  | done a => exact Iff.rfl
  | call c next ih => exact forall_congr' fun chance => ih _

/-- What is ensured of every run holds of each one. -/
theorem Ensures.run {p : Program Call Answer α} {s : Store} {post : α → Store → Prop}
    (h : Ensures perform p s post) (chances : ℕ → Chance) :
    post (p.run perform chances s).1 (p.run perform chances s).2 := by
  induction p generalizing s chances with
  | done a => exact h
  | call c next ih => exact ih _ (h (chances 0)) _

end Program

/-- The store together with a log, the latest entry first; `note` says what is noted of a call that
the store is about to answer. -/
def logged {Call Store Chance Entry : Type} {Answer : Call → Type}
    (perform : Chance → (c : Call) → Store → Answer c × Store)
    (note : Call → Store → Option Entry) (chance : Chance) (c : Call) (s : Store × List Entry) :
    Answer c × (Store × List Entry) :=
  ((perform chance c s.1).1, ((perform chance c s.1).2, (note c s.1).toList ++ s.2))

end Concurrent
