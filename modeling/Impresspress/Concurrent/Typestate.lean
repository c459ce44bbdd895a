import Impresspress.Concurrent.Script

/-!
# Programs that follow a typestate

A typestate sums up in a phase what a program has been answered so far, and says which calls may be
made in which phase. Following one is checked on the program alone, call by call; in a run, the
phase of a program is then the one that its own moments lead to, whatever the others do.

## Main definitions

* `Concurrent.Typestate`: how a call moves the phase, and when it may be made.
* `Concurrent.Program.Follows`: a program that follows a typestate.
* `Concurrent.History.phase`: the phase that the moments of a program lead to.
* `Concurrent.Program.embed`: a program whose calls are some of those of another store.

## Main results

* `Concurrent.Program.Follows.bind`, `Concurrent.Program.Follows.bindExcept`,
  `Concurrent.Program.follows_yields`: the rules.
* `Concurrent.Typestate.exec_follows`: programs that follow a typestate, run together.
-/

namespace Concurrent

variable {ι Store Chance Call Call' Phase : Type} {Answer : Call → Type} {α β : Type}

/-- Where a call leads, and whether it may be made. -/
structure Typestate {Call : Type} (Answer : Call → Type) (Phase : Type) where
  after : Phase → (c : Call) → Answer c → Phase
  permits : Phase → Call → Prop

/-- The phase that the moments of a program lead to from `φ`. -/
def History.phase (T : Typestate Answer Phase) (φ : Phase) : History ι Store Answer → Phase
  | [] => φ
  | m :: past => T.after (History.phase T φ past) m.call m.answer

@[simp] theorem History.phase_nil (T : Typestate Answer Phase) (φ : Phase) :
    History.phase T φ ([] : History ι Store Answer) = φ := rfl

@[simp] theorem History.phase_cons (T : Typestate Answer Phase) (φ : Phase)
    (m : Moment ι Store Answer) (past : History ι Store Answer) :
    History.phase T φ (m :: past) = T.after (History.phase T φ past) m.call m.answer := rfl

namespace Program

/-- A program of calls that another store answers too. -/
def embed (Answer' : Call' → Type) (f : Call → Call') :
    Program Call (fun c => Answer' (f c)) α → Program Call' Answer' α
  | done a => done a
  | call c next => call (f c) fun answer => embed Answer' f (next answer)

variable (T : Typestate Answer Phase)

/-- Every call may be made in the phase that the calls before it lead to, and the last phase
satisfies `post`. -/
def Follows : Program Call Answer α → Phase → (α → Phase → Prop) → Prop
  | done a, φ, post => post a φ
  | call c next, φ, post =>
    T.permits φ c ∧ ∀ answer, Follows (next answer) (T.after φ c answer) post

variable {T}

theorem Follows.mono {p : Program Call Answer α} {φ : Phase} {post post' : α → Phase → Prop}
    (h : p.Follows T φ post) (hpost : ∀ a φ, post a φ → post' a φ) : p.Follows T φ post' := by
  induction p generalizing φ with
  | done a => exact hpost a φ h
  | call c next ih => exact ⟨h.1, fun answer => ih answer (h.2 answer)⟩

/-- A sequence of programs. -/
theorem Follows.bind {p : Program Call Answer α} {f : α → Program Call Answer β} {φ : Phase}
    {post : β → Phase → Prop} (h : p.Follows T φ fun a φ' => (f a).Follows T φ' post) :
    (p >>= f).Follows T φ post := by
  induction p generalizing φ with
  | done a => exact h
  | call c next ih => exact ⟨h.1, fun answer => ih answer (h.2 answer)⟩

/-- A sequence of programs that may refuse. -/
theorem Follows.bindExcept {ε : Type} {p : ExceptT ε (Program Call Answer) α}
    {f : α → ExceptT ε (Program Call Answer) β} {φ : Phase} {post : Except ε β → Phase → Prop}
    (h : p.run.Follows T φ fun result φ' =>
      (∀ a, result = .ok a → (f a).run.Follows T φ' post) ∧
        ∀ e, result = .error e → post (.error e) φ') :
    (p >>= f).run.Follows T φ post := by
  refine Follows.bind (h.mono fun result φ' hresult => ?_)
  cases result with
  | ok a => exact hresult.1 a rfl
  | error e => exact hresult.2 e rfl

/-- Calls of a kind that may be made wherever `J` holds, and that keep it. -/
theorem follows_yields {K : Call → Prop} {R : α → Prop} {J : Phase → Prop}
    {p : Program Call Answer α} {φ : Phase} (hp : p.Yields K R)
    (hK : ∀ φ c, J φ → K c → T.permits φ c ∧ ∀ answer, J (T.after φ c answer)) (hφ : J φ) :
    p.Follows T φ fun a φ' => R a ∧ J φ' := by
  induction p generalizing φ with
  | done a => exact ⟨hp, hφ⟩
  | call c next ih =>
    exact ⟨(hK φ c hφ hp.1).1, fun answer => ih answer (hp.2 answer) ((hK φ c hφ hp.1).2 answer)⟩

end Program

namespace Typestate

variable [DecidableEq ι] {T : Typestate Answer Phase} {Φ : ι → Phase}
  {perform : Chance → (c : Call) → Store → Answer c × Store} {start : Store}

variable (T Φ) in
/-- Program `i`, from phase `Φ i` on, issues only what the typestate permits. -/
def issues (i : ι) (own : History ι Store Answer) (c : Call) : Prop :=
  T.permits (own.phase T (Φ i)) c

theorem safe_of_follows {i : ι} {p : Program Call Answer α} {past : History ι Store Answer}
    {post : α → Phase → Prop} (h : p.Follows T ((past.own i).phase T (Φ i)) post) :
    (Discipline.script (T.issues Φ)).Safe perform start i p past
      fun a past => post a ((past.own i).phase T (Φ i)) := by
  induction p generalizing past with
  | done a =>
    exact Discipline.Safe.script_done (fun a own => post a (History.phase T (Φ i) own)) h
  | call c next ih =>
    refine Discipline.Safe.script_call
      (fun own => History.phase T (Φ i) own = (past.own i).phase T (Φ i)) rfl ?_ ?_
    · intro own hown
      rw [issues, hown]
      exact h.1
    · intro past' chance s hpast
      refine ih _ ?_
      rw [Pool.own_momentOf, History.phase_cons, hpast]
      exact h.2 _

/-- Programs that follow a typestate, run together: every call is one that the typestate permits,
and a program that has returned is in a phase of its postcondition. -/
theorem exec_follows {programs : ι → Program Call Answer α} {post : ι → α → Phase → Prop}
    (h : ∀ i, (programs i).Follows T (Φ i) (post i)) (schedule : List (ι × Chance)) :
    Along (Scripted perform start (T.issues Φ))
        ((Pool.launch start programs).exec perform schedule).history ∧
      ∀ i a, ((Pool.launch start programs).exec perform schedule).running i = .done a →
        post i a (((Pool.launch start programs).exec perform schedule).history.own i
          |>.phase T (Φ i)) := by
  have hsafe : ∀ i, (Discipline.script (T.issues Φ)).Safe perform start i (programs i) []
      fun a past => post i a ((past.own i).phase T (Φ i)) := fun i => safe_of_follows (h i)
  exact ⟨Discipline.exec_scripted hsafe schedule,
    fun i a hdone => Discipline.exec_script_post hsafe schedule hdone⟩

end Typestate

end Concurrent
