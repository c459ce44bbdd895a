import Mathlib.Logic.Relation
import Impresspress.Concurrent.Pool

/-!
# Programs under locks

Programs that share a store take turns by locks. A contract says which locks a call needs, what
is promised of every call, what a program may count on while it holds its locks, and what is kept
at all times. A program that withstands whatever the contract lets the others do can be checked on
its own, and such programs keep the contract when they run together.

## Main definitions

* `Concurrent.Locks`: which calls take and release locks.
* `Concurrent.Promises`: what programs under locks promise each other.
* `Concurrent.Contract`: promises, and what a program may count on for it.
* `Concurrent.Contract.Withstands`: a program that keeps the contract, whatever the others do.

## Main results

* `Concurrent.Contract.Withstands.bind`: a sequence of programs.
* `Concurrent.Contract.exec_withstands`: programs that withstand the others, run together.
-/

namespace Concurrent

variable {ι L Store Chance Call : Type} {Answer : Call → Type} {α β : Type}

/-- The locks of a store. -/
structure Locks (L : Type) [DecidableEq L]
    (perform : Chance → (c : Call) → Store → Answer c × Store) where
  /-- The lock that a call takes (`true`) or releases, once it has been answered. -/
  effect : (c : Call) → Answer c → Option (L × Bool)
  held : Store → L → Bool
  held_perform : ∀ chance c s l, held (perform chance c s).2 l =
    match effect c (perform chance c s).1 with
    | some (l', taken) => if l = l' then taken else held s l
    | none => held s l

namespace Locks

variable [DecidableEq L] {perform : Chance → (c : Call) → Store → Answer c × Store}

/-- The locks that a program holds after a call. -/
def next (locks : Locks L perform) (mine : L → Bool) (c : Call) (answer : Answer c) (l : L) : Bool :=
  match locks.effect c answer with
  | some (l', taken) => if l = l' then taken else mine l
  | none => mine l

theorem next_of_none {locks : Locks L perform} {c : Call} {answer : Answer c}
    (h : locks.effect c answer = none) (mine : L → Bool) : locks.next mine c answer = mine := by
  funext l
  simp [next, h]

/-- A lock that a call does not touch stays as it is. -/
theorem held_of_untouched {locks : Locks L perform} {c : Call} {l : L} {chance : Chance} {s : Store}
    (h : ∀ taken, locks.effect c (perform chance c s).1 ≠ some (l, taken)) :
    locks.held (perform chance c s).2 l = locks.held s l := by
  rw [locks.held_perform]
  cases he : locks.effect c (perform chance c s).1 with
  | none => rfl
  | some e =>
    obtain ⟨l', taken⟩ := e
    rw [he] at h
    exact if_neg fun hl => h taken (by rw [hl])

/-- What a program holds after its call is held. -/
theorem held_next {locks : Locks L perform} {mine : L → Bool} {c : Call} {s : Store} {l : L}
    {chance : Chance} (h : mine l = true → locks.held s l = true)
    (hnext : locks.next mine c (perform chance c s).1 l = true) :
    locks.held (perform chance c s).2 l = true := by
  rw [locks.held_perform]
  unfold next at hnext
  cases he : locks.effect c (perform chance c s).1 with
  | none =>
    rw [he] at hnext
    exact h hnext
  | some e =>
    obtain ⟨l', taken⟩ := e
    rw [he] at hnext
    by_cases hl : l = l'
    · simpa [hl] using hnext
    · simp only [if_neg hl] at hnext ⊢
      exact h hnext

/-- A lock held after a call was taken by it, or was held before. -/
theorem mine_of_next {locks : Locks L perform} {mine : L → Bool} {c : Call} {answer : Answer c}
    {l : L} (h : locks.next mine c answer l = true) :
    locks.effect c answer = some (l, true) ∨ mine l = true := by
  unfold next at h
  cases he : locks.effect c answer with
  | none =>
    rw [he] at h
    exact .inr h
  | some e =>
    obtain ⟨l', taken⟩ := e
    rw [he] at h
    by_cases hl : l = l'
    · subst hl
      have htaken : taken = true := by simpa using h
      exact .inl (by rw [htaken])
    · exact .inr (by simpa [hl] using h)

end Locks

/-- What programs under locks promise of their calls. -/
structure Promises [DecidableEq L] {perform : Chance → (c : Call) → Store → Answer c × Store}
    (locks : Locks L perform) where
  /-- The locks under which a call is made. -/
  needs : Call → L → Prop
  /-- What is promised of a call that is made at a store. -/
  promise : Call → Store → Prop
  /-- What holds at all times. -/
  keeps : Store → Prop
  /-- The calls, and their answers, that a run is allowed to contain. -/
  admits : (c : Call) → Store → Answer c → Prop

/-- Promises, and what a program may count on for it. -/
structure Contract [DecidableEq L] {perform : Chance → (c : Call) → Store → Answer c × Store}
    (locks : Locks L perform) extends Promises locks where
  /-- What the others may do to the store while a program holds its locks. -/
  rely : (L → Bool) → Store → Store → Prop
  refl : ∀ mine s, rely mine s s
  trans : ∀ mine s s' s'', rely mine s s' → rely mine s' s'' → rely mine s s''

namespace Promises

variable [DecidableEq L] {perform : Chance → (c : Call) → Store → Answer c × Store}
  {locks : Locks L perform} (P : Promises locks)

/-- A call of another program, seen by one that holds the locks `mine`. -/
structure Foreign (mine : L → Bool) (chance : Chance) (c : Call) (s : Store) : Prop where
  needs : ∀ l, P.needs c l → mine l = false
  touches : ∀ l taken, locks.effect c (perform chance c s).1 = some (l, taken) → mine l = false
  promise : P.promise c s
  keeps : P.keeps s
  admits : P.admits c s (perform chance c s).1
  kept : P.keeps (perform chance c s).2

/-- The store after a call of another program. -/
def Interferes (mine : L → Bool) (s s' : Store) : Prop :=
  ∃ chance c, P.Foreign mine chance c s ∧ s' = (perform chance c s).2

/-- A program counts on what is promised, and on nothing else. -/
def contract : Contract locks where
  toPromises := P
  rely := fun mine => Relation.ReflTransGen (P.Interferes mine)
  refl := fun _ _ => .refl
  trans := fun _ _ _ _ => .trans

end Promises

namespace Contract

variable [DecidableEq L] {perform : Chance → (c : Call) → Store → Answer c × Store}
  {locks : Locks L perform} (C : Contract locks)

/-- What a program relies on is what the others promise: their calls need none of its locks. -/
def Sound : Prop :=
  ∀ mine chance c s, (∀ l, C.needs c l → mine l = false) →
    (∀ l taken, locks.effect c (perform chance c s).1 = some (l, taken) → mine l = false) →
    C.promise c s → C.keeps s → C.admits c s (perform chance c s).1 → C.keeps (perform chance c s).2 →
    C.rely mine s (perform chance c s).2

theorem sound_contract (P : Promises locks) : P.contract.Sound :=
  fun _ chance c _ hneeds htouches hpromise hkeeps hadmits hkept =>
    .single ⟨chance, c, ⟨hneeds, htouches, hpromise, hkeeps, hadmits, hkept⟩, rfl⟩

/-- A store at which a program may find itself that holds the locks `mine`. -/
structure At (mine : L → Bool) (s s' : Store) : Prop where
  rely : C.rely mine s s'
  keeps : C.keeps s'
  held : ∀ l, mine l = true → locks.held s' l = true

/-- The call may be made by a program that holds the locks `mine`. -/
structure Owned (mine : L → Bool) (c : Call) (s : Store) : Prop where
  needs : ∀ l, C.needs c l → mine l = true
  releases : ∀ answer l, locks.effect c answer = some (l, false) → mine l = true
  promise : C.promise c s

/-- The program, which holds the locks `mine`, keeps the contract from `s` on whatever the others
do, and reaches `post` at its end. -/
def Withstands : (L → Bool) → Program Call Answer α → Store →
    ((L → Bool) → α → Store → Prop) → Prop
  | mine, .done a, s, post => ∀ s', C.At mine s s' → post mine a s'
  | mine, .call c next, s, post => ∀ s', C.At mine s s' → C.Owned mine c s' ∧
    ∀ chance, C.admits c s' (perform chance c s').1 →
      (∀ l, locks.effect c (perform chance c s').1 = some (l, true) → locks.held s' l = false) →
      C.keeps (perform chance c s').2 ∧
        Withstands (locks.next mine c (perform chance c s').1) (next (perform chance c s').1)
          (perform chance c s').2 post

variable {C} {mine : L → Bool} {s : Store}

theorem At.trans {s' s'' : Store} (h : C.At mine s s') (h' : C.At mine s' s'') :
    C.At mine s s'' :=
  ⟨C.trans mine s s' s'' h.rely h'.rely, h'.keeps, h'.held⟩

theorem Withstands.later {p : Program Call Answer α} {post : (L → Bool) → α → Store → Prop}
    (h : C.Withstands mine p s post) {s' : Store} (hs' : C.rely mine s s') :
    C.Withstands mine p s' post := by
  have hat : ∀ s'', C.At mine s' s'' → C.At mine s s'' := fun s'' h'' =>
    ⟨C.trans mine s s' s'' hs' h''.rely, h''.keeps, h''.held⟩
  cases p with
  | done a => exact fun s'' h'' => h s'' (hat s'' h'')
  | call c next => exact fun s'' h'' => h s'' (hat s'' h'')

theorem Withstands.mono {p : Program Call Answer α} {post post' : (L → Bool) → α → Store → Prop}
    (h : C.Withstands mine p s post) (hpost : ∀ mine a s, post mine a s → post' mine a s) :
    C.Withstands mine p s post' := by
  induction p generalizing mine s with
  | done a => exact fun s' hs' => hpost mine a s' (h s' hs')
  | call c next ih =>
    intro s' hs'
    obtain ⟨howned, hrest⟩ := h s' hs'
    exact ⟨howned, fun chance hadmits hfree =>
      ⟨(hrest chance hadmits hfree).1, ih _ (hrest chance hadmits hfree).2⟩⟩

/-- A program is run where it finds itself. -/
theorem withstands_of_at {p : Program Call Answer α} {post : (L → Bool) → α → Store → Prop}
    (h : ∀ s', C.At mine s s' → C.Withstands mine p s' post) : C.Withstands mine p s post := by
  have hself : ∀ s', C.At mine s s' → C.At mine s' s' := fun s' hs' =>
    ⟨C.refl mine s', hs'.keeps, hs'.held⟩
  cases p with
  | done a => exact fun s' hs' => h s' hs' s' (hself s' hs')
  | call c next => exact fun s' hs' => h s' hs' s' (hself s' hs')

/-- A sequence of programs. -/
theorem Withstands.bind {p : Program Call Answer α} {f : α → Program Call Answer β}
    {post : (L → Bool) → β → Store → Prop}
    (h : C.Withstands mine p s fun mine a s => C.Withstands mine (f a) s post) :
    C.Withstands mine (p >>= f) s post := by
  induction p generalizing mine s with
  | done a =>
    rw [Program.bind_done]
    cases hfa : f a with
    | done b =>
      intro s' hs'
      have hdone : C.Withstands mine (f a) s' post := h s' hs'
      rw [hfa] at hdone
      exact hdone s' ⟨C.refl mine s', hs'.keeps, hs'.held⟩
    | call c next =>
      intro s' hs'
      have hcall : C.Withstands mine (f a) s' post := h s' hs'
      rw [hfa] at hcall
      exact hcall s' ⟨C.refl mine s', hs'.keeps, hs'.held⟩
  | call c next ih =>
    intro s' hs'
    obtain ⟨howned, hrest⟩ := h s' hs'
    exact ⟨howned, fun chance hadmits hfree =>
      ⟨(hrest chance hadmits hfree).1, ih _ (hrest chance hadmits hfree).2⟩⟩

/-! ## Running together -/

section Exec

variable [DecidableEq ι] {start : Store} {programs : ι → Program Call Answer α}
  {post : ι → (L → Bool) → α → Store → Prop}

variable (C) in
/-- A moment that a run may contain: it is admitted, and a lock that it takes is free. -/
structure Admitted (m : Moment ι Store Answer) : Prop where
  admits : C.admits m.call m.before m.answer
  free : ∀ l, locks.effect m.call m.answer = some (l, true) → locks.held m.before l = false

/-- The state of a pool whose programs have kept the contract; `mine` says who holds what. -/
private structure Kept (C : Contract locks) (post : ι → (L → Bool) → α → Store → Prop)
    (p : Pool ι Store Answer α) (mine : ι → L → Bool) : Prop where
  apart : ∀ i j l, mine i l = true → mine j l = true → i = j
  held : ∀ i l, mine i l = true → locks.held p.store l = true
  keeps : C.keeps p.store
  withstands : ∀ i, C.Withstands (mine i) (p.running i) p.store (post i)
  promise : Along (fun _ m => C.keeps m.before ∧ C.promise m.call m.before) p.history

private theorem Kept.step (hsound : ∀ i j : ι, i ≠ j → C.Sound)
    {p : Pool ι Store Answer α} {mine : ι → L → Bool} (h : Kept C post p mine) (i : ι) (chance : Chance)
    (hadmits : Along (fun _ m => C.Admitted m) (p.step perform i chance).history) :
    ∃ mine', Kept C post (p.step perform i chance) mine' := by
  cases hrun : p.running i with
  | done a => exact ⟨mine, by rwa [Pool.step_done perform hrun]⟩
  | call c next =>
    rw [Pool.step_call perform hrun] at hadmits ⊢
    have hat : C.At (mine i) p.store p.store := ⟨C.refl _ _, h.keeps, h.held i⟩
    have hcall := h.withstands i
    rw [hrun] at hcall
    obtain ⟨howned, hrest⟩ := hcall p.store hat
    obtain ⟨hkeeps, hnext⟩ := hrest chance hadmits.1.admits hadmits.1.free
    -- what `i` takes or needs nobody else holds
    have hothers : ∀ j l, j ≠ i → mine i l = true → mine j l = false := by
      intro j l hj hi
      by_contra hmine
      exact hj (h.apart j i l (by simpa using hmine) hi)
    have heffect : ∀ j, j ≠ i → ∀ l taken,
        locks.effect c (perform chance c p.store).1 = some (l, taken) → mine j l = false := by
      intro j hj l taken he
      cases taken with
      | false => exact hothers j l hj (howned.releases _ l he)
      | true =>
        by_contra hmine
        have hfree := hadmits.1.free l he
        have hheld := h.held j l (by simpa using hmine)
        exact Bool.false_ne_true (hfree.symm.trans hheld)
    refine ⟨Function.update mine i (locks.next (mine i) c (perform chance c p.store).1), ?_, ?_,
      hkeeps, ?_,
      ⟨⟨h.keeps, howned.promise⟩, h.promise⟩⟩
    · have hclash : ∀ j l, j ≠ i → locks.next (mine i) c (perform chance c p.store).1 l = true →
          mine j l = true → False := by
        intro j l hj hi hmine
        rcases Locks.mine_of_next hi with he | hi
        · exact absurd hmine (by simp [heffect j hj l true he])
        · exact hj (h.apart j i l hmine hi)
      intro j k l hjl hkl
      by_cases hj : j = i <;> by_cases hk : k = i
      · rw [hj, hk]
      · subst hj
        rw [Function.update_self] at hjl
        rw [Function.update_of_ne hk] at hkl
        exact (hclash k l hk hjl hkl).elim
      · subst hk
        rw [Function.update_self] at hkl
        rw [Function.update_of_ne hj] at hjl
        exact (hclash j l hj hkl hjl).elim
      · rw [Function.update_of_ne hj] at hjl
        rw [Function.update_of_ne hk] at hkl
        exact h.apart j k l hjl hkl
    · intro j l hl
      change locks.held (perform chance c p.store).2 l = true
      by_cases hj : j = i
      · subst hj
        rw [Function.update_self] at hl
        exact Locks.held_next (h.held j l) hl
      · rw [Function.update_of_ne hj] at hl
        rw [Locks.held_of_untouched fun taken he => ?_]
        · exact h.held j l hl
        · exact absurd hl (by simp [heffect j hj l taken he])
    · intro j
      change C.Withstands _ (Function.update p.running i _ j) _ (post j)
      by_cases hj : j = i
      · subst hj
        rw [Function.update_self, Function.update_self]
        exact hnext
      · rw [Function.update_of_ne hj, Function.update_of_ne hj]
        refine (h.withstands j).later (hsound j i hj (mine j) chance c p.store (fun l hl => ?_)
          (heffect j hj) howned.promise h.keeps hadmits.1.admits hkeeps)
        exact hothers j l hj (howned.needs l hl)

/-- Programs that withstand each other keep the contract in every admitted run, and each that has
returned has reached its end. -/
theorem exec_withstands (hsound : ∀ i j : ι, i ≠ j → C.Sound) (hstart : C.keeps start)
    (hprograms : ∀ i, C.Withstands (fun _ => false) (programs i) start (post i))
    (schedule : List (ι × Chance))
    (hadmits : Along (fun _ m => C.Admitted m)
      ((Pool.launch start programs).exec perform schedule).history) :
    let p := (Pool.launch start programs).exec perform schedule
    C.keeps p.store ∧
      Along (fun _ m => C.keeps m.before ∧ C.promise m.call m.before) p.history ∧
      ∀ i a, p.running i = .done a → ∃ mine, post i mine a p.store := by
  have hkept : ∃ mine, Kept C post ((Pool.launch start programs).exec perform schedule) mine := by
    revert hadmits
    refine Pool.exec_induction perform (p := Pool.launch start programs)
      (motive := fun p => Along (fun _ m => C.Admitted m) p.history → ∃ mine, Kept C post p mine)
      (fun _ => ⟨fun _ _ => false, nofun, nofun, hstart, hprograms, trivial⟩)
      (fun p i chance ih hadmits => ?_) schedule
    have hearlier : Along (fun _ m => C.Admitted m) p.history := by
      cases hrun : p.running i with
      | done a => rwa [Pool.step_done perform hrun] at hadmits
      | call c next =>
        rw [Pool.step_call perform hrun] at hadmits
        exact hadmits.2
    obtain ⟨mine, hp⟩ := ih hearlier
    exact hp.step hsound i chance hadmits
  obtain ⟨mine, hp⟩ := hkept
  refine ⟨hp.keeps, hp.promise, fun i a ha => ⟨mine i, ?_⟩⟩
  have hdone := hp.withstands i
  rw [ha] at hdone
  exact hdone _ ⟨C.refl _ _, hp.keeps, hp.held i⟩

end Exec

end Contract

end Concurrent
