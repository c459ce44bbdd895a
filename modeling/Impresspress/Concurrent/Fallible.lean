import Impresspress.Concurrent.Script

/-!
# Programs whose calls may fail

A call that fails ends the program unless the failure is looked at. The rules of sequences, of
scripts and of runs are stated once for such programs, whatever they call and at whatever store.

## Main definitions

* `Concurrent.Fallible`: programs with errors.
* `Concurrent.Fallible.SafeFrom`: a program that follows a script whatever went before.

## Main results

* `Concurrent.Fallible.ensures_call`: a call with nobody else at the store.
* `Concurrent.Fallible.safe_call`: a call under a script.
-/

namespace Concurrent

/-- What a call that may fail answers. -/
@[reducible] def Outcome {Call : Type} (ε : Type) (Reply : Call → Type) (c : Call) : Type :=
  Except ε (Reply c)

/-- Programs that end at the first error, unless it is handled. -/
abbrev Fallible {Call : Type} (ε : Type) (Reply : Call → Type) :=
  ExceptT ε (Program Call (Outcome ε Reply))

namespace Fallible

variable {ι Store Chance Call ε : Type} {Reply : Call → Type} {α β : Type}

/-- One call. -/
def call (c : Call) : Fallible ε Reply (Reply c) := ExceptT.mk (.call c .done)

/-- A program whose failure is looked at. -/
def attempt (p : Fallible ε Reply α) : Fallible ε Reply (Except ε α) :=
  ExceptT.mk (p.run >>= fun result => pure (.ok result))

section Alone

variable {perform : Chance → (c : Call) → Store → Outcome ε Reply c × Store}

/-- A call with nobody else at the store, and what follows it. -/
theorem ensures_call {c : Call} {f : Reply c → Fallible ε Reply α} {s : Store}
    {post : Except ε α → Store → Prop}
    (hok : ∀ chance reply, (perform chance c s).1 = .ok reply →
      (f reply).run.Ensures perform (perform chance c s).2 post)
    (herror : ∀ chance error, (perform chance c s).1 = .error error →
      post (.error error) (perform chance c s).2) :
    (call c >>= f).run.Ensures perform s post := by
  intro chance
  cases hanswer : (perform chance c s).1 with
  | ok reply => exact hok chance reply hanswer
  | error error => exact herror chance error hanswer

/-- A program with nobody else at the store, and what follows it. -/
theorem ensures_bind {p : Fallible ε Reply β} {f : β → Fallible ε Reply α} {s : Store}
    {mid : Except ε β → Store → Prop} {post : Except ε α → Store → Prop}
    (hp : p.run.Ensures perform s mid)
    (hok : ∀ b t, mid (.ok b) t → (f b).run.Ensures perform t post)
    (herror : ∀ e t, mid (.error e) t → post (.error e) t) :
    (p >>= f).run.Ensures perform s post :=
  Program.ensures_bind.mpr (hp.mono fun result t hmid =>
    match result with
    | .ok b => hok b t hmid
    | .error e => herror e t hmid)

end Alone

section Script

variable [DecidableEq ι] {perform : Chance → (c : Call) → Store → Outcome ε Reply c × Store}
  {issues : ι → History ι Store (Outcome ε Reply) → Call → Prop} {start : Store} {i : ι}

open Discipline

theorem safe_done {a : α} {past : History ι Store (Outcome ε Reply)} :
    (script issues).Safe perform start i (.done a : Program Call (Outcome ε Reply) α) past
      fun _ _ => True :=
  Safe.done (Stable.true i) trivial

/-- A call, and what follows when it is answered; when it fails the program ends. -/
theorem safe_call {c : Call} {f : Reply c → Fallible ε Reply α}
    {past : History ι Store (Outcome ε Reply)} (P : History ι Store (Outcome ε Reply) → Prop)
    (hP : P (past.own i)) (hissues : ∀ own, P own → issues i own c)
    (hnext : ∀ past chance s reply, P (History.own i past) → (perform chance c s).1 = .ok reply →
      (script issues).Safe perform start i (f reply).run
        (Pool.momentOf perform i chance c s :: past) fun _ _ => True) :
    (script issues).Safe perform start i (call c >>= f).run past fun _ _ => True := by
  refine Safe.script_call P hP hissues fun past chance s hpast => ?_
  cases hanswer : (perform chance c s).1 with
  | error e => exact safe_done
  | ok reply => exact hnext past chance s reply hpast hanswer

/-- A last call. -/
theorem safe_last {c : Call} {past : History ι Store (Outcome ε Reply)}
    (P : History ι Store (Outcome ε Reply) → Prop) (hP : P (past.own i))
    (hissues : ∀ own, P own → issues i own c) :
    (script issues).Safe perform start i (call c : Fallible ε Reply (Reply c)).run past
      fun _ _ => True :=
  Safe.script_call P hP hissues fun _ _ _ _ => safe_done

/-- A program and what follows it. -/
theorem safe_bind {p : Fallible ε Reply β} {f : β → Fallible ε Reply α}
    {past : History ι Store (Outcome ε Reply)}
    (hp : (script issues).Safe perform start i p.run past fun _ _ => True)
    (hf : ∀ b past, (script issues).Safe perform start i (f b).run past fun _ _ => True) :
    (script issues).Safe perform start i (p >>= f).run past fun _ _ => True :=
  Safe.bind (hp.mono fun result past _ =>
    match result with
    | .ok b => hf b past
    | .error _ => safe_done)

end Script

end Fallible

end Concurrent
