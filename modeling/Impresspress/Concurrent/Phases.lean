import Impresspress.Concurrent.Script

/-!
# Programs with phases

What a program has done so far is summed up in a phase. An invariant ties the phases of all
programs to the history, and each call of a program moves its own phase so that the invariant is
kept. What the other programs do in between needs no care of its own: they keep the same invariant.

## Main definitions

* `Concurrent.Protocol`: invariant of the phases and the history, guarantee and admitted moments.
* `Concurrent.Protocol.Keeps`: a program that keeps to the protocol from a phase on.

## Main results

* `Concurrent.Protocol.Keeps.bind`, `Concurrent.Protocol.Keeps.bindExcept`,
  `Concurrent.Protocol.keeps_yields`: the rules.
* `Concurrent.Protocol.exec_keeps`: programs that keep to a protocol, run together.
-/

namespace Concurrent

variable {ι Store Chance Call Phase : Type} {Answer : Call → Type} {α β : Type}

/-- What the programs of a pool keep together, each in its phase. `admits` cuts down the runs that
are considered. -/
structure Protocol (ι Store : Type) {Call : Type} (Answer : Call → Type) (Phase : Type) where
  inv : (ι → Phase) → History ι Store Answer → Prop
  guarantee : History ι Store Answer → Moment ι Store Answer → Prop := fun _ _ => True
  admits : History ι Store Answer → Moment ι Store Answer → Prop := fun _ _ => True

namespace Protocol

variable [DecidableEq ι] (P : Protocol ι Store Answer Phase)
  (perform : Chance → (c : Call) → Store → Answer c × Store) (start : Store)

/-- A call of `i` in phase `φ` may be made, and one of the phases of `next` follows it. -/
def Moves (i : ι) (φ : Phase) (c : Call) (next : Answer c → Phase → Prop) : Prop :=
  ∀ Φ past chance, Φ i = φ → P.inv Φ past →
    P.admits past (Pool.momentOf perform i chance c (past.store start)) →
    P.guarantee past (Pool.momentOf perform i chance c (past.store start)) ∧
      ∃ φ', P.inv (Function.update Φ i φ')
          (Pool.momentOf perform i chance c (past.store start) :: past) ∧
        next (perform chance c (past.store start)).1 φ'

/-- The program of `i` keeps to the protocol from phase `φ` on, and reaches `post` at its end. -/
def Keeps (i : ι) : Program Call Answer α → Phase → (α → Phase → Prop) → Prop
  | .done a, φ, post => post a φ
  | .call c next, φ, post =>
    P.Moves perform start i φ c fun answer φ' => Keeps i (next answer) φ' post

variable {P perform start}

theorem Moves.mono {i : ι} {φ : Phase} {c : Call} {next next' : Answer c → Phase → Prop}
    (h : P.Moves perform start i φ c next) (hnext : ∀ answer φ, next answer φ → next' answer φ) :
    P.Moves perform start i φ c next' := by
  intro Φ past chance hφ hinv hadmits
  obtain ⟨hguarantee, φ', hinv', hnext'⟩ := h Φ past chance hφ hinv hadmits
  exact ⟨hguarantee, φ', hinv', hnext _ _ hnext'⟩

theorem Keeps.mono {i : ι} {p : Program Call Answer α} {φ : Phase} {post post' : α → Phase → Prop}
    (h : P.Keeps perform start i p φ post) (hpost : ∀ a φ, post a φ → post' a φ) :
    P.Keeps perform start i p φ post' := by
  induction p generalizing φ with
  | done a => exact hpost a φ h
  | call c next ih => exact Moves.mono h fun answer φ' hnext => ih answer hnext

/-- A sequence of programs. -/
theorem Keeps.bind {i : ι} {p : Program Call Answer α} {f : α → Program Call Answer β} {φ : Phase}
    {post : β → Phase → Prop}
    (h : P.Keeps perform start i p φ fun a φ' => P.Keeps perform start i (f a) φ' post) :
    P.Keeps perform start i (p >>= f) φ post := by
  induction p generalizing φ with
  | done a => exact h
  | call c next ih => exact Moves.mono h fun answer φ' hnext => ih answer hnext

/-- A sequence of programs that may refuse. -/
theorem Keeps.bindExcept {ε : Type} {i : ι} {p : ExceptT ε (Program Call Answer) α}
    {f : α → ExceptT ε (Program Call Answer) β} {φ : Phase} {post : Except ε β → Phase → Prop}
    (h : P.Keeps perform start i p.run φ fun result φ' =>
      (∀ a, result = .ok a → P.Keeps perform start i (f a).run φ' post) ∧
        ∀ error, result = .error error → post (.error error) φ') :
    P.Keeps perform start i (p >>= f).run φ post := by
  refine Keeps.bind (h.mono fun result φ' hresult => ?_)
  cases result with
  | ok a => exact hresult.1 a rfl
  | error error => exact hresult.2 error rfl

/-- A program whose calls are all of a kind that leaves the phase as it is. -/
theorem keeps_yields {i : ι} {K : Call → Prop} {R : α → Prop} {p : Program Call Answer α}
    {φ : Phase} (hp : p.Yields K R)
    (hK : ∀ c, K c → P.Moves perform start i φ c fun _ φ' => φ' = φ) :
    P.Keeps perform start i p φ fun a φ' => R a ∧ φ' = φ := by
  induction p with
  | done a => exact ⟨hp, rfl⟩
  | call c next ih =>
    refine Moves.mono (hK c hp.1) fun answer φ' hφ' => ?_
    rw [hφ']
    exact ih answer (hp.2 answer)

/-- A call that leaves the phase as it is. -/
theorem moves_of_inv {i : ι} {φ : Phase} {c : Call}
    (h : ∀ Φ past chance, Φ i = φ → P.inv Φ past →
      P.admits past (Pool.momentOf perform i chance c (past.store start)) →
      P.guarantee past (Pool.momentOf perform i chance c (past.store start)) ∧
        P.inv Φ (Pool.momentOf perform i chance c (past.store start) :: past)) :
    P.Moves perform start i φ c fun _ φ' => φ' = φ := by
  intro Φ past chance hφ hinv hadmits
  obtain ⟨hguarantee, hinv'⟩ := h Φ past chance hφ hinv hadmits
  refine ⟨hguarantee, φ, ?_, rfl⟩
  rwa [← hφ, Function.update_eq_self]

section Exec

variable {programs : ι → Program Call Answer α} {Φ₀ : ι → Phase} {post : ι → α → Phase → Prop}

/-- The state of a pool whose programs have all kept to the protocol so far. -/
private structure Phased (P : Protocol ι Store Answer Phase)
    (perform : Chance → (c : Call) → Store → Answer c × Store) (start : Store)
    (post : ι → α → Phase → Prop) (p : Pool ι Store Answer α) : Prop where
  start_eq : p.start = start
  guarantee : Along P.admits p.history →
    Along (fun past m => (∃ Φ, P.inv Φ past) ∧ P.guarantee past m) p.history
  phased : Along P.admits p.history → ∃ Φ, P.inv Φ p.history ∧
    ∀ i, P.Keeps perform start i (p.running i) (Φ i) (post i)

private theorem Phased.step {p : Pool ι Store Answer α} (h : Phased P perform start post p) (i : ι)
    (chance : Chance) : Phased P perform start post (p.step perform i chance) := by
  cases hrun : p.running i with
  | done a => rwa [Pool.step_done perform hrun]
  | call c next =>
    have hstore : p.store = p.history.store start := by rw [Pool.store, h.start_eq]
    rw [Pool.step_call perform hrun, hstore]
    have hnext : Along P.admits p.history →
        P.admits p.history (Pool.momentOf perform i chance c (p.history.store start)) →
        ((∃ Φ, P.inv Φ p.history) ∧
          P.guarantee p.history (Pool.momentOf perform i chance c (p.history.store start))) ∧
        ∃ Φ, P.inv Φ (Pool.momentOf perform i chance c (p.history.store start) :: p.history) ∧
          ∀ j, P.Keeps perform start j (Function.update p.running i
            (next (perform chance c (p.history.store start)).1) j) (Φ j) (post j) := by
      intro hpast hadmits
      obtain ⟨Φ, hinv, hkeeps⟩ := h.phased hpast
      have hmoves := hkeeps i
      rw [hrun] at hmoves
      obtain ⟨hguarantee, φ', hinv', hnext⟩ := hmoves Φ p.history chance rfl hinv hadmits
      refine ⟨⟨⟨Φ, hinv⟩, hguarantee⟩, _, hinv', fun j => ?_⟩
      by_cases hj : j = i
      · subst hj
        rw [Function.update_self, Function.update_self]
        exact hnext
      · rw [Function.update_of_ne hj, Function.update_of_ne hj]
        exact hkeeps j
    exact ⟨h.start_eq, fun hadmits => ⟨(hnext hadmits.2 hadmits.1).1, h.guarantee hadmits.2⟩,
      fun hadmits => (hnext hadmits.2 hadmits.1).2⟩

/-- Programs that keep to a protocol keep its invariant all along every admitted run, each call keeps
the guarantee, and a program that has returned has reached its postcondition. -/
theorem exec_keeps (hinv : P.inv Φ₀ [])
    (hkeeps : ∀ i, P.Keeps perform start i (programs i) (Φ₀ i) (post i))
    (schedule : List (ι × Chance))
    (hadmits : Along P.admits ((Pool.launch start programs).exec perform schedule).history) :
    Along (fun past m => (∃ Φ, P.inv Φ past) ∧ P.guarantee past m)
        ((Pool.launch start programs).exec perform schedule).history ∧
      ∃ Φ, P.inv Φ ((Pool.launch start programs).exec perform schedule).history ∧
        ∀ i, P.Keeps perform start i
          (((Pool.launch start programs).exec perform schedule).running i) (Φ i) (post i) := by
  have h : Phased P perform start post ((Pool.launch start programs).exec perform schedule) :=
    Pool.exec_induction perform ⟨rfl, fun _ => trivial, fun _ => ⟨Φ₀, hinv, hkeeps⟩⟩
      (fun _ i chance hp => hp.step i chance) schedule
  exact ⟨h.guarantee hadmits, h.phased hadmits⟩

end Exec

end Protocol

end Concurrent
