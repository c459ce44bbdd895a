import Impresspress.Concurrent.Faults
import Impresspress.Concurrent.Locks

/-!
# Assertions under locks

What a program knows of the store between its calls is an assertion that the others cannot falsify
while it holds its locks. The rules lead from one assertion to the next: through a call, a
sequence, a loop, a failure that is looked at.

## Main definitions

* `Concurrent.Contract.Stable`: an assertion that the others cannot falsify.
* `Concurrent.Contract.Leads`: a program that leads from an assertion to another one.
* `Concurrent.Fallible.Prompt`: a program that stops at its first failed call.

## Main results

* `Concurrent.Contract.leads_call`, `Concurrent.Contract.Leads.bind`,
  `Concurrent.Contract.Leads.attempt`, `Concurrent.Contract.leads_forM`: the rules.
* `Concurrent.Contract.leads_prompt`: a program that stops at its first failed call.
-/

namespace Concurrent

variable {L Store Chance Call ε : Type} {Reply : Call → Type} {α β γ : Type}

namespace Fallible

/-- The program makes calls of one kind, and stops with their error when one fails. -/
def Prompt (K : Call → Prop) : Program Call (Outcome ε Reply) (Except ε α) → Prop
  | .done (.ok _) => True
  | .done (.error _) => False
  | .call c next => K c ∧ (∀ reply, Prompt K (next (.ok reply))) ∧
    ∀ e, next (.error e) = .done (.error e)

variable {K : Call → Prop}

theorem prompt_pure (a : α) : Prompt K (pure a : Fallible ε Reply α).run := trivial

theorem prompt_call {c : Call} (h : K c) :
    Prompt K (call c : Fallible ε Reply (Reply c)).run := ⟨h, fun _ => trivial, fun _ => rfl⟩

theorem prompt_bind {p : Fallible ε Reply β} {f : β → Fallible ε Reply α} (hp : Prompt K p.run)
    (hf : ∀ b, Prompt K (f b).run) : Prompt K (p >>= f).run := by
  obtain ⟨q, hq⟩ : ∃ q, p.run = q := ⟨_, rfl⟩
  change Prompt K (p.run >>= ExceptT.bindCont f)
  rw [hq] at hp ⊢
  clear hq p
  induction q with
  | done result =>
    cases result with
    | ok b => exact hf b
    | error e => exact hp.elim
  | call c next ih =>
    obtain ⟨hK, hok, herror⟩ := hp
    refine ⟨hK, fun reply => ih _ (hok reply), fun e => ?_⟩
    change next (.error e) >>= ExceptT.bindCont f = _
    rw [herror e]
    rfl

theorem prompt_forM {f : γ → Fallible ε Reply PUnit} {todo : List γ}
    (hf : ∀ x ∈ todo, Prompt K (f x).run) : Prompt K (todo.forM f).run := by
  induction todo with
  | nil => exact prompt_pure _
  | cons x todo ih =>
    exact prompt_bind (hf x List.mem_cons_self) fun _ =>
      ih fun y hy => hf y (List.mem_cons_of_mem x hy)

end Fallible

namespace Contract

open Fallible

variable [DecidableEq L] {perform : Chance → (c : Call) → Store → Outcome ε Reply c × Store}
  {locks : Locks L perform} {C : Contract locks} {mine : L → Bool} {Q : Store → Prop}

variable (C) in
/-- An assertion that the others cannot falsify. -/
def Stable (mine : L → Bool) (Q : Store → Prop) : Prop :=
  ∀ s s', Q s → C.At mine s s' → Q s'

theorem Stable.and {Q' : Store → Prop} (h : C.Stable mine Q) (h' : C.Stable mine Q') :
    C.Stable mine fun s => Q s ∧ Q' s :=
  fun s s' hs hat => ⟨h s s' hs.1 hat, h' s s' hs.2 hat⟩

/-- What no single call of the others falsifies. -/
theorem stable_of_foreign {P : Promises locks}
    (h : ∀ chance c s, Q s → P.Foreign mine chance c s → Q (perform chance c s).2) :
    P.contract.Stable mine Q := by
  intro s s' hs hat
  have hrely : Relation.ReflTransGen (P.Interferes mine) s s' := hat.rely
  clear hat
  induction hrely with
  | refl => exact hs
  | tail _ hstep ih =>
    obtain ⟨chance, c, hforeign, rfl⟩ := hstep
    exact h chance c _ ih hforeign

variable (C) in
/-- What a program knows of the store it is about to call. -/
structure Known (mine : L → Bool) (Q : Store → Prop) (s : Store) : Prop where
  assertion : Q s
  keeps : C.keeps s
  held : ∀ l, mine l = true → locks.held s l = true

/-- What holds of the store when a program has ended. -/
def Outcomes (Q' : α → Store → Prop) (E : ε → Store → Prop) : Except ε α → Store → Prop
  | .ok a => Q' a
  | .error e => E e

variable (C) in
/-- A call that may be made where `Q` is known, and what is known once it has been answered. -/
def Calls (mine : L → Bool) (Q : Store → Prop) (c : Call)
    (next : Outcome ε Reply c → Store → Prop) : Prop :=
  ∀ s, C.Known mine Q s → C.Owned mine c s ∧
    ∀ chance, C.admits c s (perform chance c s).1 →
      (∀ l, locks.effect c (perform chance c s).1 = some (l, true) → locks.held s l = false) →
      C.keeps (perform chance c s).2 ∧ next (perform chance c s).1 (perform chance c s).2

variable (C) in
/-- From `Q` the program leads to `Q'`, and to `E` when it fails; it ends with the locks that it
started with. -/
def Leads (mine : L → Bool) (Q : Store → Prop) (p : Fallible ε Reply α)
    (Q' : α → Store → Prop) (E : ε → Store → Prop) : Prop :=
  ∀ s, Q s → C.Withstands mine p.run s fun mine' result s' =>
    mine' = mine ∧ Outcomes Q' E result s'

variable {Q' : α → Store → Prop} {E : ε → Store → Prop}

theorem Leads.mono {R : Store → Prop} {R' : α → Store → Prop} {F : ε → Store → Prop}
    {p : Fallible ε Reply α} (h : C.Leads mine Q p Q' E) (hR : ∀ s, R s → Q s)
    (hR' : ∀ a s, Q' a s → R' a s) (hF : ∀ e s, E e s → F e s) : C.Leads mine R p R' F :=
  fun s hs => (h s (hR s hs)).mono fun _ result s' hpost =>
    match result with
    | .ok a => ⟨hpost.1, hR' a s' hpost.2⟩
    | .error e => ⟨hpost.1, hF e s' hpost.2⟩

theorem leads_pure {a : α} (hstable : C.Stable mine (Q' a)) (h : ∀ s, Q s → Q' a s) :
    C.Leads mine Q (pure a) Q' E :=
  fun s hs s' hat => ⟨rfl, hstable s s' (h s hs) hat⟩

theorem leads_throw {e : ε} (hstable : C.Stable mine (E e)) (h : ∀ s, Q s → E e s) :
    C.Leads mine Q (throw e) Q' E :=
  fun s hs s' hat => ⟨rfl, hstable s s' (h s hs) hat⟩

/-- A call that touches no lock. -/
theorem leads_call {c : Call} {Q' : Reply c → Store → Prop} (heffect : ∀ answer, locks.effect c answer = none)
    (hQ : C.Stable mine Q) (hQ' : ∀ reply, C.Stable mine (Q' reply))
    (hE : ∀ e, C.Stable mine (E e)) (h : C.Calls mine Q c (Outcomes Q' E)) :
    C.Leads mine Q (call c) Q' E := by
  intro s hs s' hat
  obtain ⟨howned, hrest⟩ := h s' ⟨hQ s s' hs hat, hat.keeps, hat.held⟩
  refine ⟨howned, fun chance hadmits hfree => ?_⟩
  obtain ⟨hkeeps, hnext⟩ := hrest chance hadmits hfree
  rw [Locks.next_of_none (heffect _)]
  refine ⟨hkeeps, fun s'' hat' => ⟨rfl, ?_⟩⟩
  cases hanswer : (perform chance c s').1 with
  | ok reply =>
    rw [hanswer] at hnext
    exact hQ' reply _ _ hnext hat'
  | error e =>
    rw [hanswer] at hnext
    exact hE e _ _ hnext hat'

/-- A sequence: what follows is not run when the first part fails. -/
theorem Leads.bind {p : Fallible ε Reply β} {f : β → Fallible ε Reply α} {M : β → Store → Prop}
    (hE : ∀ e, C.Stable mine (E e)) (hp : C.Leads mine Q p M E)
    (hf : ∀ b, C.Leads mine (M b) (f b) Q' E) : C.Leads mine Q (p >>= f) Q' E := by
  intro s hs
  refine Withstands.bind ((hp s hs).mono fun mine' result s' hpost => ?_)
  cases result with
  | ok b =>
    obtain ⟨rfl, hM⟩ := hpost
    exact hf b s' hM
  | error e =>
    obtain ⟨rfl, he⟩ := hpost
    exact fun s'' hat => ⟨rfl, hE e _ _ he hat⟩

/-- A program whose failure is looked at, and what follows. -/
theorem Leads.attempt {p : Fallible ε Reply β} {f : Except ε β → Fallible ε Reply α}
    {M : β → Store → Prop} {F : ε → Store → Prop} (hp : C.Leads mine Q p M F)
    (hok : ∀ b, C.Leads mine (M b) (f (.ok b)) Q' E)
    (herror : ∀ e, C.Leads mine (F e) (f (.error e)) Q' E) :
    C.Leads mine Q (Fallible.attempt p >>= f) Q' E := by
  intro s hs
  refine Withstands.bind (Withstands.bind ((hp s hs).mono fun mine' result s' hpost => ?_))
  intro s'' hat
  cases result with
  | ok b =>
    obtain ⟨rfl, hM⟩ := hpost
    exact (hok b s' hM).later hat.rely
  | error e =>
    obtain ⟨rfl, he⟩ := hpost
    exact (herror e s' he).later hat.rely

/-- A program all of whose calls are of a kind that keeps an assertion. -/
theorem leads_only {K : Call → Prop} {p : Fallible ε Reply α} (hp : p.run.Only K)
    (hQ : C.Stable mine Q)
    (hK : ∀ c, K c → (∀ answer, locks.effect c answer = none) ∧ C.Calls mine Q c fun _ => Q) :
    C.Leads mine Q p (fun _ => Q) fun _ => Q := by
  intro s hs
  obtain ⟨q, hq⟩ : ∃ q, p.run = q := ⟨_, rfl⟩
  rw [hq] at hp ⊢
  clear hq p
  induction q generalizing s with
  | done result =>
    intro s' hat
    have hQ' := hQ s s' hs hat
    cases result with
    | ok a => exact ⟨rfl, hQ'⟩
    | error e => exact ⟨rfl, hQ'⟩
  | call c next ih =>
    intro s' hat
    obtain ⟨heffect, hcalls⟩ := hK c hp.1
    obtain ⟨howned, hrest⟩ := hcalls s' ⟨hQ s s' hs hat, hat.keeps, hat.held⟩
    refine ⟨howned, fun chance hadmits hfree => ?_⟩
    obtain ⟨hkeeps, hnext⟩ := hrest chance hadmits hfree
    rw [Locks.next_of_none (heffect _)]
    exact ⟨hkeeps, ih _ _ hnext (hp.2 _)⟩

/-- A program that stops at its first failed call: its error is known as that call's is. -/
theorem leads_prompt {K : Call → Prop} {p : Fallible ε Reply α} (hp : Prompt K p.run)
    (hQ : C.Stable mine Q) (hE : ∀ e, C.Stable mine (E e))
    (hK : ∀ c, K c → (∀ answer, locks.effect c answer = none) ∧ C.Calls mine Q c (Outcomes (fun _ => Q) E)) :
    C.Leads mine Q p (fun _ => Q) E := by
  intro s hs
  obtain ⟨q, hq⟩ : ∃ q, p.run = q := ⟨_, rfl⟩
  rw [hq] at hp ⊢
  clear hq p
  induction q generalizing s with
  | done result =>
    intro s' hat
    cases result with
    | ok a => exact ⟨rfl, hQ s s' hs hat⟩
    | error e => exact hp.elim
  | call c next ih =>
    intro s' hat
    obtain ⟨heffect, hcalls⟩ := hK c hp.1
    obtain ⟨howned, hrest⟩ := hcalls s' ⟨hQ s s' hs hat, hat.keeps, hat.held⟩
    refine ⟨howned, fun chance hadmits hfree => ?_⟩
    obtain ⟨hkeeps, hnext⟩ := hrest chance hadmits hfree
    rw [Locks.next_of_none (heffect _)]
    refine ⟨hkeeps, ?_⟩
    cases hanswer : (perform chance c s').1 with
    | ok reply =>
      rw [hanswer] at hnext
      exact ih _ _ hnext (hp.2.1 reply)
    | error e =>
      rw [hanswer] at hnext
      rw [hp.2.2 e]
      exact fun s'' hat' => ⟨rfl, hE e _ _ hnext hat'⟩

/-- A loop that keeps an assertion. -/
theorem leads_forM {f : γ → Fallible ε Reply PUnit} {todo : List γ} (hQ : C.Stable mine Q)
    (hE : ∀ e, C.Stable mine (E e))
    (hf : ∀ x ∈ todo, C.Leads mine Q (f x) (fun _ => Q) E) :
    C.Leads mine Q (todo.forM f) (fun _ => Q) E := by
  induction todo with
  | nil => exact leads_pure hQ fun _ hs => hs
  | cons x todo ih =>
    exact (hf x List.mem_cons_self).bind hE fun _ =>
      ih fun y hy => hf y (List.mem_cons_of_mem x hy)

end Contract

end Concurrent
