import Impresspress.Concurrent.Pool

/-!
# Rely-guarantee reasoning for pools

A discipline states what every call of every program guarantees, which calls a run is allowed
to contain, and an invariant of the history. A program is safe when each of its calls keeps
the guarantee whatever the other programs did in between, as long as they too kept theirs.
Safe programs may be run together: the invariant then holds after every admitted schedule.

## Main definitions

* `Concurrent.Discipline`: invariant, guarantee and admitted moments.
* `Concurrent.Discipline.Foreign`: what the other programs may add to a history.
* `Concurrent.Discipline.Safe`: a program that keeps the discipline.

## Main results

* `Concurrent.Discipline.Safe.bind`: safety of a sequence of programs.
* `Concurrent.Discipline.exec_safe`: safe programs run together keep the invariant.
* `Concurrent.Discipline.exec_guarantee`: and each call keeps the guarantee.
-/

namespace Concurrent

variable {ι Store Chance Call : Type} {Answer : Call → Type} {α β : Type}

/-- What the programs of a pool promise each other.

`admits` cuts down the runs that are considered: the invariant is promised only as long as
every moment is admitted, the guarantee also for the first moment that is not. -/
structure Discipline (ι Store : Type) {Call : Type} (Answer : Call → Type) where
  inv : History ι Store Answer → Prop
  guarantee : History ι Store Answer → Moment ι Store Answer → Prop
  admits : History ι Store Answer → Moment ι Store Answer → Prop := fun _ _ => True

namespace Discipline

variable (D : Discipline ι Store Answer) (perform : Chance → (c : Call) → Store → Answer c × Store)
  (start : Store)

/-- A moment that may follow `past` in a run under the discipline. -/
structure Allowed (past : History ι Store Answer) (m : Moment ι Store Answer) : Prop where
  before : m.before = past.store start
  happened : m.Happened perform
  guarantee : D.guarantee past m
  admits : D.admits past m
  inv_before : D.inv past
  inv : D.inv (m :: past)

/-- `past'` extends `past` by moments of programs other than `i`. -/
inductive Foreign (i : ι) (past : History ι Store Answer) : History ι Store Answer → Prop
  | refl : Foreign i past past
  | step {past' : History ι Store Answer} {m : Moment ι Store Answer}
      (prev : Foreign i past past') (proc : m.proc ≠ i) (allowed : D.Allowed perform start past' m) :
      Foreign i past (m :: past')

variable {D perform start}

theorem Foreign.trans {i : ι} {past past' past'' : History ι Store Answer}
    (h : D.Foreign perform start i past past') (h' : D.Foreign perform start i past' past'') :
    D.Foreign perform start i past past'' := by
  induction h' with
  | refl => exact h
  | step prev proc allowed ih => exact .step ih proc allowed

variable (D perform start) in
/-- An assertion about the history that the other programs cannot falsify. -/
def Stable (i : ι) (A : History ι Store Answer → Prop) : Prop :=
  ∀ past m, A past → m.proc ≠ i → D.Allowed perform start past m → A (m :: past)

theorem Stable.foreign {i : ι} {A : History ι Store Answer → Prop} (hA : D.Stable perform start i A)
    {past past' : History ι Store Answer} (h : D.Foreign perform start i past past') (hp : A past) :
    A past' := by
  induction h with
  | refl => exact hp
  | step _ proc allowed ih => exact hA _ _ ih proc allowed

theorem Stable.true (i : ι) : D.Stable perform start i fun _ => True := fun _ _ _ _ _ => trivial

theorem Stable.and {i : ι} {A B : History ι Store Answer → Prop} (hA : D.Stable perform start i A)
    (hB : D.Stable perform start i B) : D.Stable perform start i fun past => A past ∧ B past :=
  fun past m h hm hallowed => ⟨hA past m h.1 hm hallowed, hB past m h.2 hm hallowed⟩

/-- What depends only on the moments of `i` is not falsified by the others. -/
theorem Stable.own [DecidableEq ι] (i : ι) (P : History ι Store Answer → Prop) :
    D.Stable perform start i fun past => P (past.own i) := by
  intro past m h hm _
  rwa [History.own_cons_of_ne hm]

variable (D perform start) in
/-- The program of `i` keeps the discipline from `past` on, and reaches `post` at its end. -/
def Safe (i : ι) : Program Call Answer α → History ι Store Answer →
    (α → History ι Store Answer → Prop) → Prop
  | .done a, past, post => ∀ past', D.Foreign perform start i past past' → D.inv past' → post a past'
  | .call c next, past, post =>
    ∀ past', D.Foreign perform start i past past' → D.inv past' → ∀ chance,
      D.guarantee past' (Pool.momentOf perform i chance c (past'.store start)) ∧
      (D.admits past' (Pool.momentOf perform i chance c (past'.store start)) →
        D.inv (Pool.momentOf perform i chance c (past'.store start) :: past') ∧
        Safe i (next (perform chance c (past'.store start)).1)
          (Pool.momentOf perform i chance c (past'.store start) :: past') post)

theorem Safe.foreign {i : ι} {p : Program Call Answer α} {past past' : History ι Store Answer}
    {post : α → History ι Store Answer → Prop} (h : D.Safe perform start i p past post)
    (hf : D.Foreign perform start i past past') : D.Safe perform start i p past' post := by
  cases p with
  | done a => exact fun past'' hf' => h past'' (hf.trans hf')
  | call c next => exact fun past'' hf' => h past'' (hf.trans hf')

/-- Safety of a result: the postcondition must be one the others cannot falsify. -/
theorem Safe.done {i : ι} {a : α} {past : History ι Store Answer}
    {post : α → History ι Store Answer → Prop} (hstable : D.Stable perform start i (post a))
    (h : post a past) : D.Safe perform start i (.done a : Program Call Answer α) past post :=
  fun _ hf _ => hstable.foreign hf h

/-- Safety of a call, from an assertion `A` that holds until the call is made. -/
theorem Safe.call {i : ι} {c : Call} {next : Answer c → Program Call Answer α}
    {past : History ι Store Answer} {post : α → History ι Store Answer → Prop}
    (A : History ι Store Answer → Prop) (hstable : D.Stable perform start i A) (hA : A past)
    (h : ∀ past, A past → D.inv past → ∀ chance,
      D.guarantee past (Pool.momentOf perform i chance c (past.store start)) ∧
      (D.admits past (Pool.momentOf perform i chance c (past.store start)) →
        D.inv (Pool.momentOf perform i chance c (past.store start) :: past) ∧
        D.Safe perform start i (next (perform chance c (past.store start)).1)
          (Pool.momentOf perform i chance c (past.store start) :: past) post)) :
    D.Safe perform start i (.call c next) past post :=
  fun past' hf hinv chance => h past' (hstable.foreign hf hA) hinv chance

/-- Safety of a call that needs to know nothing of the history. -/
theorem Safe.call_of_forall {i : ι} {c : Call} {next : Answer c → Program Call Answer α}
    {past : History ι Store Answer} {post : α → History ι Store Answer → Prop}
    (h : ∀ past, D.inv past → ∀ chance,
      D.guarantee past (Pool.momentOf perform i chance c (past.store start)) ∧
      (D.admits past (Pool.momentOf perform i chance c (past.store start)) →
        D.inv (Pool.momentOf perform i chance c (past.store start) :: past) ∧
        D.Safe perform start i (next (perform chance c (past.store start)).1)
          (Pool.momentOf perform i chance c (past.store start) :: past) post)) :
    D.Safe perform start i (.call c next) past post :=
  Safe.call (fun _ => True) (Stable.true i) trivial fun past _ hinv chance => h past hinv chance

/-- Safety of a call, from what `i` itself has done. -/
theorem Safe.call_own [DecidableEq ι] {i : ι} {c : Call}
    {next : Answer c → Program Call Answer α} {past : History ι Store Answer}
    {post : α → History ι Store Answer → Prop} (P : History ι Store Answer → Prop)
    (hP : P (past.own i))
    (h : ∀ past, P (past.own i) → D.inv past → ∀ chance,
      D.guarantee past (Pool.momentOf perform i chance c (past.store start)) ∧
      (D.admits past (Pool.momentOf perform i chance c (past.store start)) →
        D.inv (Pool.momentOf perform i chance c (past.store start) :: past) ∧
        D.Safe perform start i (next (perform chance c (past.store start)).1)
          (Pool.momentOf perform i chance c (past.store start) :: past) post)) :
    D.Safe perform start i (.call c next) past post :=
  Safe.call _ (Stable.own i P) hP h

theorem Safe.mono {i : ι} {p : Program Call Answer α} {past : History ι Store Answer}
    {post post' : α → History ι Store Answer → Prop} (h : D.Safe perform start i p past post)
    (hpost : ∀ a past, post a past → post' a past) : D.Safe perform start i p past post' := by
  induction p generalizing past with
  | done a => exact fun past' hf hinv => hpost a past' (h past' hf hinv)
  | call c next ih =>
    intro past' hf hinv chance
    obtain ⟨hguarantee, hrest⟩ := h past' hf hinv chance
    exact ⟨hguarantee, fun hadmits => ⟨(hrest hadmits).1, ih _ (hrest hadmits).2⟩⟩

/-- A sequence is safe when its first part leads to a history from which the second is. -/
theorem Safe.bind {i : ι} {p : Program Call Answer α} {f : α → Program Call Answer β}
    {past : History ι Store Answer} {post : β → History ι Store Answer → Prop}
    (h : D.Safe perform start i p past fun a past' => D.Safe perform start i (f a) past' post) :
    D.Safe perform start i (p >>= f) past post := by
  induction p generalizing past with
  | done a =>
    rw [Program.bind_done]
    cases hfa : f a with
    | done b =>
      intro past' hf hinv
      have hsafe : D.Safe perform start i (f a) past' post := h past' hf hinv
      rw [hfa] at hsafe
      exact hsafe past' .refl hinv
    | call c next =>
      intro past' hf hinv chance
      have hsafe : D.Safe perform start i (f a) past' post := h past' hf hinv
      rw [hfa] at hsafe
      exact hsafe past' .refl hinv chance
  | call c next ih =>
    intro past' hf hinv chance
    obtain ⟨hguarantee, hrest⟩ := h past' hf hinv chance
    exact ⟨hguarantee, fun hadmits => ⟨(hrest hadmits).1, ih _ (hrest hadmits).2⟩⟩

section Exec

variable [DecidableEq ι] {programs : ι → Program Call Answer α}
  {post : ι → α → History ι Store Answer → Prop}

/-- The state of a pool whose programs have all kept the discipline so far. -/
private structure Kept (D : Discipline ι Store Answer)
    (perform : Chance → (c : Call) → Store → Answer c × Store) (start : Store)
    (post : ι → α → History ι Store Answer → Prop) (p : Pool ι Store Answer α) : Prop where
  start_eq : p.start = start
  guarantee : Along D.admits p.history.tail → Along D.guarantee p.history
  inv : Along D.admits p.history → D.inv p.history
  safe : Along D.admits p.history → ∀ i, D.Safe perform start i (p.running i) p.history (post i)

private theorem Kept.step {p : Pool ι Store Answer α} (h : Kept D perform start post p) (i : ι)
    (chance : Chance) : Kept D perform start post (p.step perform i chance) := by
  cases hrun : p.running i with
  | done a => rwa [Pool.step_done perform hrun]
  | call c next =>
    rw [Pool.step_call perform hrun]
    set m := Pool.momentOf perform i chance c p.store with hm
    have hstore : p.store = p.history.store start := by rw [Pool.store, h.start_eq]
    have hnext : Along D.admits p.history → D.guarantee p.history m ∧
        (D.admits p.history m → D.inv (m :: p.history) ∧
          D.Safe perform start i (next (perform chance c p.store).1) (m :: p.history)
            (post i)) := by
      intro hadmits
      have hsafe := h.safe hadmits i
      rw [hrun] at hsafe
      rw [hm, hstore]
      exact hsafe p.history .refl (h.inv hadmits) chance
    refine ⟨h.start_eq, fun hadmits => ⟨(hnext hadmits).1, h.guarantee ?_⟩,
      fun hadmits => ((hnext hadmits.2).2 hadmits.1).1, fun hadmits j => ?_⟩
    · cases hhist : p.history with
      | nil => trivial
      | cons m' past => rw [List.tail_cons, hhist] at hadmits; exact hadmits.2
    · change D.Safe perform start j (Function.update p.running i _ j) (m :: p.history) (post j)
      by_cases hj : j = i
      · subst hj
        rw [Function.update_self]
        exact ((hnext hadmits.2).2 hadmits.1).2
      · rw [Function.update_of_ne hj]
        exact (h.safe hadmits.2 j).foreign (.step .refl (Ne.symm hj)
          ⟨hstore, ⟨chance, rfl, rfl⟩, (hnext hadmits.2).1, hadmits.1, h.inv hadmits.2,
            ((hnext hadmits.2).2 hadmits.1).1⟩)

private theorem exec_kept (hinv : D.inv [])
    (hsafe : ∀ i, D.Safe perform start i (programs i) [] (post i))
    (schedule : List (ι × Chance)) :
    Kept D perform start post ((Pool.launch start programs).exec perform schedule) :=
  Pool.exec_induction perform ⟨rfl, fun _ => trivial, fun _ => hinv, fun _ => hsafe⟩
    (fun _ i chance hp => hp.step i chance) schedule

/-- Safe programs run together keep the invariant in every admitted run, and each program
that has returned has reached its postcondition. -/
theorem exec_safe (hinv : D.inv [])
    (hsafe : ∀ i, D.Safe perform start i (programs i) [] (post i)) (schedule : List (ι × Chance))
    (hadmits : Along D.admits ((Pool.launch start programs).exec perform schedule).history) :
    D.inv ((Pool.launch start programs).exec perform schedule).history ∧
      ∀ i a, ((Pool.launch start programs).exec perform schedule).running i = .done a →
        post i a ((Pool.launch start programs).exec perform schedule).history := by
  have h := exec_kept hinv hsafe schedule
  refine ⟨h.inv hadmits, fun i a ha => ?_⟩
  have hdone := h.safe hadmits i
  rw [ha] at hdone
  exact hdone _ .refl (h.inv hadmits)

/-- Every call of safe programs keeps the guarantee, up to and including the first moment
that is not admitted. -/
theorem exec_guarantee (hinv : D.inv [])
    (hsafe : ∀ i, D.Safe perform start i (programs i) [] (post i)) (schedule : List (ι × Chance))
    (hadmits : Along D.admits
      ((Pool.launch start programs).exec perform schedule).history.tail) :
    Along D.guarantee ((Pool.launch start programs).exec perform schedule).history :=
  (exec_kept hinv hsafe schedule).guarantee hadmits

end Exec

end Discipline

end Concurrent
