import Mathlib.Data.List.Induction
import Mathlib.Logic.Function.Basic
import Impresspress.Concurrent.Program

/-!
# Pools of programs at one store

Any number of programs run at one store, one call at a time; a schedule says whose call is
next and what chance it meets. The pool keeps the history of the calls made, so that a
statement about a run is a statement about a list.

## Main definitions

* `Concurrent.Moment`: one call, with the store before and after it.
* `Concurrent.Pool`: the programs still to run, and the history of the pool.
* `Concurrent.Pool.exec`: a pool run along a schedule.
* `Concurrent.Along`: a property of every moment of a history, given the moments before it.
-/

namespace Concurrent

variable {ι Store Chance Call : Type} {Answer : Call → Type} {α : Type}

/-- One call of one program: the store before it, its answer, and the store after it. -/
structure Moment (ι Store : Type) {Call : Type} (Answer : Call → Type) where
  proc : ι
  before : Store
  call : Call
  answer : Answer call
  after : Store

/-- The moments of a run, the latest first. -/
abbrev History (ι Store : Type) {Call : Type} (Answer : Call → Type) :=
  List (Moment ι Store Answer)

/-- The store that a history leaves behind. -/
def History.store (start : Store) : History ι Store Answer → Store
  | [] => start
  | m :: _ => m.after

@[simp] theorem History.store_nil (start : Store) :
    History.store start ([] : History ι Store Answer) = start := rfl

@[simp] theorem History.store_cons (start : Store) (m : Moment ι Store Answer)
    (past : History ι Store Answer) : History.store start (m :: past) = m.after := rfl

/-- The moment is one that the store can have produced: its answer and the store after it are
those of the call at the store before it. -/
def Moment.Happened (perform : Chance → (c : Call) → Store → Answer c × Store)
    (m : Moment ι Store Answer) : Prop :=
  ∃ chance, m.answer = (perform chance m.call m.before).1 ∧
    m.after = (perform chance m.call m.before).2

/-- `P` holds at every moment of a history, each taken with the moments before it. -/
def Along (P : History ι Store Answer → Moment ι Store Answer → Prop) :
    History ι Store Answer → Prop
  | [] => True
  | m :: past => P past m ∧ Along P past

@[simp] theorem along_nil (P : History ι Store Answer → Moment ι Store Answer → Prop) :
    Along P [] := trivial

@[simp] theorem along_cons (P : History ι Store Answer → Moment ι Store Answer → Prop)
    (m : Moment ι Store Answer) (past : History ι Store Answer) :
    Along P (m :: past) ↔ P past m ∧ Along P past := Iff.rfl

instance Along.decidable (P : History ι Store Answer → Moment ι Store Answer → Prop)
    [∀ past m, Decidable (P past m)] : (past : History ι Store Answer) → Decidable (Along P past)
  | [] => isTrue trivial
  | m :: past =>
    have := Along.decidable P past
    inferInstanceAs (Decidable (P past m ∧ Along P past))

theorem Along.of_forall {P : History ι Store Answer → Moment ι Store Answer → Prop}
    (h : ∀ past m, P past m) : (past : History ι Store Answer) → Along P past
  | [] => trivial
  | m :: past => ⟨h past m, Along.of_forall h past⟩

theorem Along.mono {P P' : History ι Store Answer → Moment ι Store Answer → Prop}
    (hP : ∀ past m, P past m → P' past m) :
    {past : History ι Store Answer} → Along P past → Along P' past
  | [], _ => trivial
  | _ :: _, h => ⟨hP _ _ h.1, h.2.mono hP⟩

/-- What holds along a history holds along what it had been earlier. -/
theorem Along.earlier {P : History ι Store Answer → Moment ι Store Answer → Prop} :
    {later earlier : History ι Store Answer} → Along P (later ++ earlier) → Along P earlier
  | [], _, h => h
  | _ :: _, _, h => Along.earlier h.2

theorem Along.and {P P' : History ι Store Answer → Moment ι Store Answer → Prop} :
    {past : History ι Store Answer} → Along P past → Along P' past →
      Along (fun past m => P past m ∧ P' past m) past
  | [], _, _ => trivial
  | _ :: _, h, h' => ⟨⟨h.1, h'.1⟩, h.2.and h'.2⟩

section Own

variable [DecidableEq ι]

/-- The moments of one program, the latest first. -/
def History.own (i : ι) (past : History ι Store Answer) : History ι Store Answer :=
  past.filter fun m => m.proc = i

@[simp] theorem History.own_nil (i : ι) : History.own i ([] : History ι Store Answer) = [] := rfl

theorem History.own_cons_self {i : ι} {m : Moment ι Store Answer} (h : m.proc = i)
    (past : History ι Store Answer) : History.own i (m :: past) = m :: past.own i := by
  simp [own, h]

theorem History.own_cons_of_ne {i : ι} {m : Moment ι Store Answer} (h : m.proc ≠ i)
    (past : History ι Store Answer) : History.own i (m :: past) = past.own i := by
  simp [own, h]

theorem History.mem_own {i : ι} {m : Moment ι Store Answer} {past : History ι Store Answer} :
    m ∈ past.own i ↔ m ∈ past ∧ m.proc = i := by
  simp [own]

end Own

/-- Programs at one store: the store they started from, the calls made so far, and what each
program still has to do. -/
structure Pool (ι Store : Type) {Call : Type} (Answer : Call → Type) (α : Type) where
  start : Store
  history : History ι Store Answer
  running : ι → Program Call Answer α

namespace Pool

/-- The pool in which no program has made a call. -/
def launch (start : Store) (programs : ι → Program Call Answer α) : Pool ι Store Answer α :=
  ⟨start, [], programs⟩

/-- The store as the pool has it now. -/
def store (p : Pool ι Store Answer α) : Store := p.history.store p.start

/-- Every program of the pool has returned. -/
def Finished (p : Pool ι Store Answer α) : Prop := ∀ i, ∃ a, p.running i = .done a

variable (perform : Chance → (c : Call) → Store → Answer c × Store)

/-- The moment of a call `c` made by `i` at the store `s`. -/
def momentOf (i : ι) (chance : Chance) (c : Call) (s : Store) : Moment ι Store Answer :=
  ⟨i, s, c, (perform chance c s).1, (perform chance c s).2⟩

variable [DecidableEq ι]

theorem own_momentOf (i : ι) (chance : Chance) (c : Call) (s : Store)
    (past : History ι Store Answer) :
    History.own i (momentOf perform i chance c s :: past) =
      momentOf perform i chance c s :: past.own i :=
  History.own_cons_self rfl past

/-- Program `i` makes its next call; a program that has returned makes none. -/
def step (p : Pool ι Store Answer α) (i : ι) (chance : Chance) : Pool ι Store Answer α :=
  match p.running i with
  | .done _ => p
  | .call c next =>
    ⟨p.start, momentOf perform i chance c p.store :: p.history,
      Function.update p.running i (next (perform chance c p.store).1)⟩

/-- Run a pool along a schedule. -/
def exec (p : Pool ι Store Answer α) (schedule : List (ι × Chance)) : Pool ι Store Answer α :=
  schedule.foldl (fun p turn => p.step perform turn.1 turn.2) p

@[simp] theorem exec_nil (p : Pool ι Store Answer α) : p.exec perform [] = p := rfl

@[simp] theorem exec_append (p : Pool ι Store Answer α) (schedule : List (ι × Chance))
    (turn : ι × Chance) :
    p.exec perform (schedule ++ [turn]) = (p.exec perform schedule).step perform turn.1 turn.2 := by
  simp [exec]

theorem step_done {p : Pool ι Store Answer α} {i : ι} {a : α} (h : p.running i = .done a)
    (chance : Chance) : p.step perform i chance = p := by
  simp [step, h]

theorem step_call {p : Pool ι Store Answer α} {i : ι} {c : Call}
    {next : Answer c → Program Call Answer α} (h : p.running i = .call c next)
    (chance : Chance) : p.step perform i chance =
      ⟨p.start, momentOf perform i chance c p.store :: p.history,
        Function.update p.running i (next (perform chance c p.store).1)⟩ := by
  simp [step, h]

/-- What holds of the pool at launch and survives every step holds after every schedule. -/
theorem exec_induction {motive : Pool ι Store Answer α → Prop} {p : Pool ι Store Answer α}
    (launch : motive p)
    (step : ∀ p i chance, motive p → motive (p.step perform i chance))
    (schedule : List (ι × Chance)) : motive (p.exec perform schedule) := by
  induction schedule using List.reverseRecOn with
  | nil => exact launch
  | append_singleton schedule turn ih =>
    rw [exec_append]
    exact step _ turn.1 turn.2 ih

@[simp] theorem exec_start (p : Pool ι Store Answer α) (schedule : List (ι × Chance)) :
    (p.exec perform schedule).start = p.start := by
  refine exec_induction perform (motive := fun q => q.start = p.start) rfl ?_ schedule
  intro q i chance hq
  cases h : q.running i with
  | done a => rw [step_done perform h, hq]
  | call c next => rw [step_call perform h]; exact hq

/-- Every moment of a run happened at the store that the moments before it had left. -/
theorem exec_happened (start : Store) (programs : ι → Program Call Answer α)
    (schedule : List (ι × Chance)) :
    Along (fun past m => m.before = past.store start ∧ m.Happened perform)
      ((launch start programs).exec perform schedule).history := by
  refine (exec_induction perform (p := launch start programs)
    (motive := fun q => q.start = start ∧ Along _ q.history) ⟨rfl, trivial⟩ ?_ schedule).2
  rintro q i chance ⟨hstart, hq⟩
  cases h : q.running i with
  | done a => rw [step_done perform h]; exact ⟨hstart, hq⟩
  | call c next =>
    rw [step_call perform h]
    exact ⟨hstart, ⟨by rw [← hstart]; rfl, chance, rfl, rfl⟩, hq⟩

end Pool

end Concurrent
