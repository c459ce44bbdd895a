import Impresspress.Concurrent.Assertions
import Impresspress.Concurrent.Faults

/-!
# What holds at every call of a run

A statement about each single call of a program, with the store that it finds, next to the statement
about the end of the program.

## Main definitions

* `Concurrent.Program.Walks`: what holds at every call of a run, and at its end.
* `Concurrent.Program.stoppedAt`: the store that a stopped run leaves.
* `Concurrent.counting`: a store that counts the calls.
* `Concurrent.Fallible.Passes`: a program that walks so, and what holds when it has failed or not.
* `Concurrent.Fallible.Reaches`: the same, with nothing said of a failure.
* `Concurrent.Fallible.Follows`: a program whose calls are known beforehand.

## Main results

* `Concurrent.Program.Walks.stoppedAt`: what holds at every call holds wherever a run stops.
* `Concurrent.Fallible.passes_bind`, `Concurrent.Fallible.passes_attempt`,
  `Concurrent.Fallible.reaches_forM`: sequences, handled failures and loops.
* `Concurrent.Fallible.Attains.passes`: what holds after any failure holds at every call.
* `Concurrent.Fallible.Reaches.run`: a program that is stopped by failures only reaches its end when
  there is none.
* `Concurrent.Fallible.follows_bind`, `Concurrent.Fallible.follows_forM`: what a sequence and a loop
  follow.
-/

namespace Concurrent

variable {Store Chance Call ε : Type}

namespace Program

variable {Answer : Call → Type} {α : Type}
  (perform : Chance → (c : Call) → Store → Answer c × Store)

/-- `I` holds at every call of every run of the program alone from `s`, and `post` at its end. -/
def Walks (I : Chance → Call → Store → Prop) :
    Program Call Answer α → Store → (α → Store → Prop) → Prop
  | .done a, s, post => post a s
  | .call c next, s, post =>
    ∀ chance, I chance c s ∧ Walks I (next (perform chance c s).1) (perform chance c s).2 post

/-- The store that is left when a run stops at its call number `n`, before the call is made; there
is none when the run makes no so many calls. -/
def stoppedAt : Program Call Answer α → (ℕ → Chance) → ℕ → Store → Option Store
  | .done _, _, _, _ => none
  | .call _ _, _, 0, s => some s
  | .call c next, chances, n + 1, s =>
    stoppedAt (next (perform (chances 0) c s).1) (fun n => chances (n + 1)) n
      (perform (chances 0) c s).2

variable {perform} {I : Chance → Call → Store → Prop}

theorem Walks.mono {p : Program Call Answer α} {s : Store} {J : Chance → Call → Store → Prop}
    {post post' : α → Store → Prop} (h : p.Walks perform I s post)
    (hI : ∀ chance c s, I chance c s → J chance c s) (hpost : ∀ a s, post a s → post' a s) :
    p.Walks perform J s post' := by
  induction p generalizing s with
  | done a => exact hpost a s h
  | call c next ih => exact fun chance => ⟨hI _ _ _ (h chance).1, ih _ (h chance).2⟩

/-- What holds at the end of every run holds at the end of each one. -/
theorem Walks.run {p : Program Call Answer α} {s : Store} {post : α → Store → Prop}
    (h : p.Walks perform I s post) (chances : ℕ → Chance) :
    post (p.run perform chances s).1 (p.run perform chances s).2 := by
  induction p generalizing s chances with
  | done a => exact h
  | call c next ih => exact ih _ (h (chances 0)).2 _

/-- What holds at every call holds wherever a run stops. -/
theorem Walks.stoppedAt {p : Program Call Answer α} {s t : Store} {post : α → Store → Prop}
    (h : p.Walks perform I s post) {chances : ℕ → Chance} {n : ℕ}
    (ht : p.stoppedAt perform chances n s = some t) : ∃ c, ∀ chance, I chance c t := by
  induction p generalizing s n chances with
  | done a => cases ht
  | call c next ih =>
    cases n with
    | zero =>
      cases ht
      exact ⟨c, fun chance => (h chance).1⟩
    | succ n => exact ih _ (h (chances 0)).2 ht

theorem Walks.bind {β : Type} {p : Program Call Answer α} {f : α → Program Call Answer β}
    {s : Store} {post : β → Store → Prop}
    (h : p.Walks perform I s fun a s => (f a).Walks perform I s post) :
    (p >>= f).Walks perform I s post := by
  induction p generalizing s with
  | done a => exact h
  | call c next ih => exact fun chance => ⟨(h chance).1, ih _ (h chance).2⟩

end Program

/-- The store together with the number of calls that were made. -/
def counting {Answer : Call → Type} (perform : Chance → (c : Call) → Store → Answer c × Store)
    (chance : Chance) (c : Call) (x : Store × ℕ) : Answer c × (Store × ℕ) :=
  ((perform chance c x.1).1, ((perform chance c x.1).2, x.2 + 1))

namespace Program

variable {Answer : Call → Type} {α : Type} {perform : Chance → (c : Call) → Store → Answer c × Store}

/-- Where a run stops, so many calls were counted. -/
theorem stoppedAt_counting {p : Program Call Answer α} {chances : ℕ → Chance} {n : ℕ} {s t : Store}
    (h : p.stoppedAt perform chances n s = some t) (m : ℕ) :
    p.stoppedAt (counting perform) chances n (s, m) = some (t, m + n) := by
  induction p generalizing s n m chances with
  | done a => cases h
  | call c next ih =>
    cases n with
    | zero =>
      cases h
      rfl
    | succ n =>
      have hnext := ih _ h (m + 1)
      rwa [Nat.add_right_comm, Nat.add_assoc] at hnext

/-- What holds at every call while they are counted holds at every call. -/
theorem Walks.of_counting {I : Chance → Call → Store → Prop} {p : Program Call Answer α} {s : Store}
    {m : ℕ} {post : α → Store → Prop}
    (h : p.Walks (counting perform) (fun chance c x => I chance c x.1) (s, m)
      fun a x => post a x.1) : p.Walks perform I s post := by
  induction p generalizing s m with
  | done a => exact h
  | call c next ih => exact fun chance => ⟨(h chance).1, ih _ (h chance).2⟩

variable (perform) in
/-- Counting changes nothing. -/
theorem run_counting (p : Program Call Answer α) (chances : ℕ → Chance) (s : Store) (m : ℕ) :
    ∃ n, p.run (counting perform) chances (s, m) =
      ((p.run perform chances s).1, ((p.run perform chances s).2, n)) := by
  induction p generalizing s m chances with
  | done a => exact ⟨m, rfl⟩
  | call c next ih => exact ih _ _ _ _

end Program

namespace Fallible

variable {Reply : Call → Type} {α β γ : Type}
  (perform : Chance → (c : Call) → Store → Outcome ε Reply c × Store)
  (I : Chance → Call → Store → Prop)

/-- `I` holds at every call of the program, `P` at its end if it has not failed, and `E` if it
has. -/
def Passes (p : Fallible ε Reply α) (s : Store) (P : α → Store → Prop) (E : ε → Store → Prop) :
    Prop :=
  p.run.Walks perform I s fun result s' =>
    match result with
    | .ok a => P a s'
    | .error e => E e s'

/-- `I` holds at every call of the program, and `post` at its end if it has not failed. -/
def Reaches (p : Fallible ε Reply α) (s : Store) (post : α → Store → Prop) : Prop :=
  Passes perform I p s post fun _ _ => True

variable {perform I}

section Passes

variable {P : α → Store → Prop} {E : ε → Store → Prop} {s : Store}

theorem passes_pure {a : α} (h : P a s) : Passes perform I (pure a : Fallible ε Reply α) s P E := h

theorem passes_throw {e : ε} (h : E e s) :
    Passes perform I (throw e : Fallible ε Reply α) s P E := h

theorem passes_call {c : Call} {P : Reply c → Store → Prop} (hI : ∀ chance, I chance c s)
    (hok : ∀ chance reply s', perform chance c s = (.ok reply, s') → P reply s')
    (herror : ∀ chance e s', perform chance c s = (.error e, s') → E e s') :
    Passes perform I (call c : Fallible ε Reply (Reply c)) s P E := by
  intro chance
  refine ⟨hI chance, ?_⟩
  cases hanswer : perform chance c s with
  | mk outcome s' =>
    cases outcome with
    | ok reply => exact hok chance reply s' hanswer
    | error e => exact herror chance e s' hanswer

theorem Passes.mono {p : Fallible ε Reply α} {J : Chance → Call → Store → Prop}
    {P' : α → Store → Prop} {E' : ε → Store → Prop} (h : Passes perform I p s P E)
    (hI : ∀ chance c s, I chance c s → J chance c s) (hgood : ∀ a s, P a s → P' a s)
    (hbad : ∀ e s, E e s → E' e s) : Passes perform J p s P' E' :=
  Program.Walks.mono h hI fun result s' hs' =>
    match result with
    | .ok a => hgood a s' hs'
    | .error e => hbad e s' hs'

theorem passes_bind {p : Fallible ε Reply β} {f : β → Fallible ε Reply α} {M : β → Store → Prop}
    (hp : Passes perform I p s M E) (hf : ∀ b t, M b t → Passes perform I (f b) t P E) :
    Passes perform I (p >>= f) s P E :=
  Program.Walks.bind (Program.Walks.mono hp (fun _ _ _ h => h) fun result t hM =>
    match result with
    | .ok b => hf b t hM
    | .error _ => hM)

/-- A program whose failure is looked at. -/
theorem passes_attempt {p : Fallible ε Reply β} {f : Except ε β → Fallible ε Reply α}
    {M : β → Store → Prop} {B : ε → Store → Prop} (hp : Passes perform I p s M B)
    (hok : ∀ b t, M b t → Passes perform I (f (.ok b)) t P E)
    (herror : ∀ e t, B e t → Passes perform I (f (.error e)) t P E) :
    Passes perform I (attempt p >>= f) s P E := by
  refine Program.Walks.bind (Program.Walks.bind (Program.Walks.mono hp (fun _ _ _ h => h)
    fun result t hM => ?_))
  cases result with
  | ok b => exact hok b t hM
  | error e => exact herror e t hM

/-- What a walk leads to is there at the end of every run. -/
theorem Passes.ensures {p : Fallible ε Reply α} (h : Passes perform I p s P E)
    (failed : List Call) :
    p.run.Ensures (recording perform) (s, failed) fun result x =>
      match result with
      | .ok a => P a x.1
      | .error e => E e x.1 := by
  unfold Passes at h
  generalize p.run = q at h
  induction q generalizing s failed with
  | done result => exact h
  | call c next ih => exact fun chance => ih _ _ (h chance).2

/-- Calls that keep a property of the store, whatever they answer. -/
theorem passes_only {K : Call → Prop} {J : Store → Prop} {p : Fallible ε Reply α}
    (hp : p.run.Only K) (hK : ∀ chance c s, K c → J s → J (perform chance c s).2) (hs : J s) :
    Passes perform (fun _ _ s => J s) p s (fun _ => J) fun _ => J := by
  unfold Passes
  generalize p.run = q at hp
  induction q generalizing s with
  | done result => cases result <;> exact hs
  | call c next ih => exact fun chance => ⟨hs, ih _ (hK chance c s hp.1 hs) (hp.2 _)⟩

/-- What holds after any failure holds at every call of a program that stops at its first failed
call: each call can fail, and changes nothing then. -/
theorem Attains.passes {K : Call → Prop} {B : ε → Call → Store → Prop} {p : Fallible ε Reply α}
    (hp : Prompt K p.run) (h : Attains perform p s P B) (fault : Chance)
    (hfault : ∀ c s, K c → ∃ e, perform fault c s = (.error e, s)) :
    Passes perform (fun _ c s => ∃ e, B e c s) p s P fun e s => ∃ c, B e c s := by
  unfold Passes
  have hrun := h []
  clear h
  generalize p.run = q at hp hrun
  induction q generalizing s with
  | done result =>
    cases result with
    | ok a => exact hrun.2
    | error e => exact hp.elim
  | call c next ih =>
    obtain ⟨hK, hok, herror⟩ := hp
    intro chance
    refine ⟨?_, ?_⟩
    · obtain ⟨e, he⟩ := hfault c s hK
      have hstop := hrun fault
      rw [recording_error he, herror e] at hstop
      obtain ⟨c', hc', hB⟩ := hstop
      cases hc'
      exact ⟨e, hB⟩
    · have hnext := hrun chance
      cases hanswer : perform chance c s with
      | mk outcome s' =>
        cases outcome with
        | ok reply =>
          rw [recording_ok hanswer] at hnext
          exact ih _ (hok reply) hnext
        | error e =>
          rw [recording_error hanswer, herror e] at hnext
          obtain ⟨c', hc', hB⟩ := hnext
          cases hc'
          rw [herror e]
          exact ⟨c, hB⟩

end Passes

theorem reaches_pure {a : α} {s : Store} {post : α → Store → Prop} (h : post a s) :
    Reaches perform I (pure a : Fallible ε Reply α) s post := h

theorem Reaches.mono {p : Fallible ε Reply α} {s : Store} {post post' : α → Store → Prop}
    (h : Reaches perform I p s post) (hpost : ∀ a s, post a s → post' a s) :
    Reaches perform I p s post' :=
  Passes.mono h (fun _ _ _ h => h) hpost fun _ _ _ => trivial

theorem reaches_call {c : Call} {s : Store} {post : Reply c → Store → Prop}
    (hI : ∀ chance, I chance c s)
    (hpost : ∀ chance reply, (perform chance c s).1 = .ok reply → post reply (perform chance c s).2) :
    Reaches perform I (call c : Fallible ε Reply (Reply c)) s post := by
  refine passes_call hI (fun chance reply s' hanswer => ?_) fun _ _ _ _ => trivial
  have h := hpost chance reply (congrArg Prod.fst hanswer)
  rwa [hanswer] at h

theorem reaches_bind {p : Fallible ε Reply β} {f : β → Fallible ε Reply α} {s : Store}
    {M : β → Store → Prop} {post : α → Store → Prop} (hp : Reaches perform I p s M)
    (hf : ∀ b t, M b t → Reaches perform I (f b) t post) :
    Reaches perform I (p >>= f) s post :=
  passes_bind hp hf

theorem reaches_throw {e : ε} {s : Store} {post : α → Store → Prop} :
    Reaches perform I (throw e : Fallible ε Reply α) s post := trivial

/-- A program whose failure is looked at, and what follows it. -/
theorem reaches_attempt {p : Fallible ε Reply β} {f : Except ε β → Fallible ε Reply α} {s : Store}
    {M : β → Store → Prop} {B : ε → Store → Prop} {post : α → Store → Prop}
    (hp : Passes perform I p s M B) (hok : ∀ b t, M b t → Reaches perform I (f (.ok b)) t post)
    (herror : ∀ e t, B e t → Reaches perform I (f (.error e)) t post) :
    Reaches perform I (attempt p >>= f) s post :=
  passes_attempt hp hok herror

theorem Passes.reaches {p : Fallible ε Reply α} {s : Store} {P : α → Store → Prop}
    {E : ε → Store → Prop} (h : Passes perform I p s P E) : Reaches perform I p s P :=
  h.mono (fun _ _ _ h => h) (fun _ _ h => h) fun _ _ _ => trivial

/-- A loop: what holds once some of the rounds are behind it. -/
theorem reaches_forM {f : γ → Fallible ε Reply PUnit} {todo l : List γ} {s : Store}
    {J : List γ → Store → Prop} (h : J l s)
    (hf : ∀ x ∈ todo, ∀ past t, (∀ y ∈ past, y ∈ todo ∨ y ∈ l) → J past t →
      Reaches perform I (f x) t fun _ t' => J (x :: past) t') :
    Reaches perform I (todo.forM f) s fun _ s' => J (todo.reverse ++ l) s' := by
  induction todo generalizing l s with
  | nil => exact reaches_pure h
  | cons x todo ih =>
    refine reaches_bind (hf x List.mem_cons_self l s (fun _ hy => .inr hy) h) fun _ t ht => ?_
    refine (ih ht fun y hy past t' hpast => hf y (List.mem_cons_of_mem x hy) past t'
      fun z hz => ?_).mono fun _ s' hs' => ?_
    · rcases hpast z hz with hz | hz
      · exact .inl (List.mem_cons_of_mem x hz)
      · rcases List.mem_cons.mp hz with rfl | hz
        · exact .inl List.mem_cons_self
        · exact .inr hz
    · rwa [List.reverse_cons, List.append_assoc, List.singleton_append]

/-- What a program reaches is there at the end of each run that has not failed. -/
theorem Reaches.of_run {p : Fallible ε Reply α} {s s' : Store} {post : α → Store → Prop} {a : α}
    (h : Reaches perform I p s post) {chances : ℕ → Chance}
    (hrun : p.run.run perform chances s = (.ok a, s')) : post a s' := by
  unfold Reaches Passes at h
  generalize p.run = q at h hrun
  induction q generalizing s chances with
  | done result =>
    cases hrun
    exact h
  | call c next ih => exact ih _ (h (chances 0)).2 hrun

/-- A program that only failed calls stop reaches its end when no call fails. -/
theorem Reaches.run {K : Call → Prop} {p : Fallible ε Reply α} {s : Store}
    {post : α → Store → Prop} (h : Reaches perform I p s post) (hp : Prompt K p.run)
    (chances : ℕ → Chance)
    (hI : ∀ n c s, I (chances n) c s → ∃ reply, (perform (chances n) c s).1 = .ok reply) :
    ∃ a, (p.run.run perform chances s).1 = .ok a ∧ post a (p.run.run perform chances s).2 := by
  unfold Reaches Passes at h
  generalize p.run = q at h hp
  induction q generalizing s chances with
  | done result =>
    cases result with
    | ok a => exact ⟨a, rfl, h⟩
    | error e => exact hp.elim
  | call c next ih =>
    obtain ⟨hcall, hrest⟩ := h (chances 0)
    obtain ⟨reply, hreply⟩ := hI 0 c s hcall
    rw [hreply] at hrest
    simp only [Program.run, hreply]
    exact ih (.ok reply) (fun n => chances (n + 1)) (fun n => hI (n + 1)) hrest (hp.2.1 reply)

/-- What a program reaches while its calls are counted. -/
theorem Reaches.of_counting {J : Chance → Call → Store × ℕ → Prop} {p : Fallible ε Reply α}
    {s : Store} {m : ℕ} {post : α → Store × ℕ → Prop} {post' : α → Store → Prop}
    (h : Reaches (counting perform) J p (s, m) post)
    (hJ : ∀ chance c x, J chance c x → I chance c x.1)
    (hpost : ∀ a x, post a x → post' a x.1) : Reaches perform I p s post' :=
  Program.Walks.of_counting (Passes.mono h hJ hpost fun _ _ _ => trivial)

/-! ## Calls that are known beforehand -/

section Follows

variable {Op : Type} (perform : Chance → (c : Call) → Store → Outcome ε Reply c × Store)
  (At : List Op → Store → Prop) (Does : Op → Chance → Call → Store → Prop)

/-- The program makes a call for each of `ops` in turn: `At` holds of the store once those of a list
were made, and `Does` says what is asked of the call that is made for one of them. -/
def Follows (p : Fallible ε Reply α) (ops : List Op) : Prop :=
  ∀ done s, At done s →
    Reaches perform
      (fun chance c t => ∃ past op rest, ops = past ++ op :: rest ∧ At (done ++ past) t ∧
        Does op chance c t) p s fun _ t => At (done ++ ops) t

variable {perform At Does}

theorem follows_pure (a : α) : Follows perform At Does (pure a : Fallible ε Reply α) [] :=
  fun done s h => reaches_pure (by rwa [List.append_nil])

theorem follows_call {c : Call} {op : Op}
    (hdoes : ∀ done s, At done s → ∀ chance, Does op chance c s)
    (hok : ∀ done s, At done s → ∀ chance reply, (perform chance c s).1 = .ok reply →
      At (done ++ [op]) (perform chance c s).2) :
    Follows perform At Does (call c : Fallible ε Reply (Reply c)) [op] := fun done s h =>
  reaches_call
    (fun chance => ⟨[], op, [], rfl, by rwa [List.append_nil], hdoes done s h chance⟩)
    (hok done s h)

theorem follows_bind {p : Fallible ε Reply β} {f : β → Fallible ε Reply α} {ops ops' : List Op}
    (hp : Follows perform At Does p ops) (hf : ∀ b, Follows perform At Does (f b) ops') :
    Follows perform At Does (p >>= f) (ops ++ ops') := fun done s h => by
  have hfirst := Program.Walks.mono (hp done s h)
    (J := fun chance c t => ∃ past op rest, ops ++ ops' = past ++ op :: rest ∧ At (done ++ past) t ∧
      Does op chance c t)
    (fun chance c t ⟨past, op, rest, hops, hat, hdoes⟩ =>
      ⟨past, op, rest ++ ops', by simp [hops], hat, hdoes⟩) fun _ _ h => h
  refine reaches_bind hfirst fun b t ht => ?_
  have hrest := hf b (done ++ ops) t ht
  rw [List.append_assoc] at hrest
  refine Program.Walks.mono hrest (fun chance c t ⟨past, op, rest, hops, hat, hdoes⟩ => ?_)
    fun _ _ h => h
  refine ⟨ops ++ past, op, rest, by simp [hops], ?_, hdoes⟩
  rwa [← List.append_assoc]

theorem follows_forM {f : γ → Fallible ε Reply PUnit} {todo : List γ} {ops : γ → List Op}
    (hf : ∀ x ∈ todo, Follows perform At Does (f x) (ops x)) :
    Follows perform At Does (todo.forM f) (todo.flatMap ops) := by
  induction todo with
  | nil => exact follows_pure _
  | cons x todo ih =>
    rw [List.flatMap_cons]
    exact follows_bind (hf x List.mem_cons_self) fun _ =>
      ih fun y hy => hf y (List.mem_cons_of_mem x hy)

/-- A program that makes some of the calls of a list, and what makes the others. -/
theorem Follows.reaches_bind {p : Fallible ε Reply β} {f : β → Fallible ε Reply α} {s : Store}
    {ops all done : List Op} {post : α → Store → Prop} (hp : Follows perform At Does p ops)
    (hs : At done s) (hall : done ++ ops <+: all)
    (hf : ∀ b t, At (done ++ ops) t → Reaches perform
      (fun chance c t => ∃ past op rest, all = past ++ op :: rest ∧ At past t ∧ Does op chance c t)
      (f b) t post) :
    Reaches perform
      (fun chance c t => ∃ past op rest, all = past ++ op :: rest ∧ At past t ∧ Does op chance c t)
      (p >>= f) s post := by
  obtain ⟨todo, rfl⟩ := hall
  exact Fallible.reaches_bind (Program.Walks.mono (hp done s hs)
    (fun _ _ _ ⟨past, op, rest, hops, hat, hdoes⟩ =>
      ⟨done ++ past, op, rest ++ todo, by simp [hops], hat, hdoes⟩) fun _ _ h => h) hf

end Follows

end Fallible

end Concurrent
