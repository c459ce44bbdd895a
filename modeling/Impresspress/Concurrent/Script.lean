import Impresspress.Concurrent.RelyGuarantee

/-!
# Programs that follow a script

A script says what a program may issue next, from what it has itself done so far and from
nothing else. Following a script is a discipline without an invariant, so every program can
be checked on its own, and then every moment of every run is one that its script allows.

## Main definitions

* `Concurrent.Discipline.script`: the discipline of a script.
* `Concurrent.Scripted`: a moment that happened, and that its script allows.
* `Concurrent.Program.Only`: a program all of whose calls are of one kind.
* `Concurrent.Program.Yields`: the same, with what its result is.
* `Concurrent.Discipline.Lasting`: what such a program and the others keep.

## Main results

* `Concurrent.Discipline.exec_scripted`: every moment of a run of such programs is scripted.
* `Concurrent.Discipline.Safe.yields`: a program of harmless calls.
-/

namespace Concurrent

variable {ι Store Chance Call : Type} {Answer : Call → Type} {α β : Type}

namespace Program

/-- Every call of the program, whatever it is answered, is of kind `K`. -/
def Only (K : Call → Prop) : Program Call Answer α → Prop
  | done _ => True
  | call c next => K c ∧ ∀ r, Only K (next r)

theorem Only.bind {K : Call → Prop} {p : Program Call Answer α} {f : α → Program Call Answer β}
    (hp : Only K p) (hf : ∀ a, Only K (f a)) : Only K (p >>= f) := by
  induction p with
  | done a => exact hf a
  | call c next ih => exact ⟨hp.1, fun r => ih r (hp.2 r)⟩

theorem Only.mono {K K' : Call → Prop} {p : Program Call Answer α} (hp : Only K p)
    (hK : ∀ c, K c → K' c) : Only K' p := by
  induction p with
  | done a => trivial
  | call c next ih => exact ⟨hK c hp.1, fun r => ih r (hp.2 r)⟩

/-- Every call of the program is of kind `K`, and its result is one of `R`, whatever the calls are
answered. -/
def Yields (K : Call → Prop) (R : α → Prop) : Program Call Answer α → Prop
  | done a => R a
  | call c next => K c ∧ ∀ r, Yields K R (next r)

section Yields

variable {K : Call → Prop} {R : α → Prop} {R' : β → Prop}

theorem Yields.bind {p : Program Call Answer α} {f : α → Program Call Answer β}
    (hp : Yields K R p) (hf : ∀ a, R a → Yields K R' (f a)) : Yields K R' (p >>= f) := by
  induction p with
  | done a => exact hf a hp
  | call c next ih => exact ⟨hp.1, fun r => ih r (hp.2 r)⟩

theorem Yields.mono {R₁ : α → Prop} {p : Program Call Answer α} (hp : Yields K R p)
    (hR : ∀ a, R a → R₁ a) : Yields K R₁ p := by
  induction p with
  | done a => exact hR a hp
  | call c next ih => exact ⟨hp.1, fun r => ih r (hp.2 r)⟩

theorem Yields.weaken {K' : Call → Prop} {p : Program Call Answer α} (hp : Yields K R p)
    (hK : ∀ c, K c → K' c) : Yields K' R p := by
  induction p with
  | done a => exact hp
  | call c next ih => exact ⟨hK c hp.1, fun r => ih r (hp.2 r)⟩

theorem Yields.ensures {p : Program Call Answer α} (hp : Yields K R p)
    (perform : Chance → (c : Call) → Store → Answer c × Store) (s : Store) :
    p.Ensures perform s fun a _ => R a := by
  induction p generalizing s with
  | done a => exact hp
  | call c next ih => exact fun chance => ih _ (hp.2 _) _

end Yields

section Except

variable {ε : Type} {K : Call → Prop}

theorem Only.bind_except {p : ExceptT ε (Program Call Answer) α}
    {f : α → ExceptT ε (Program Call Answer) β} (hp : Only K p.run) (hf : ∀ a, Only K (f a).run) :
    Only K (p >>= f).run :=
  Only.bind hp fun
    | .ok a => hf a
    | .error _ => trivial

theorem Yields.bindExcept {R : Except ε α → Prop} {R' : Except ε β → Prop}
    {p : ExceptT ε (Program Call Answer) α} {f : α → ExceptT ε (Program Call Answer) β}
    (hp : Yields K R p.run) (hok : ∀ a, R (.ok a) → Yields K R' (f a).run)
    (herror : ∀ e, R (.error e) → R' (.error e)) : Yields K R' (p >>= f).run := by
  refine Yields.bind hp fun result hresult => ?_
  cases result with
  | ok a => exact hok a hresult
  | error e => exact herror e hresult

theorem Only.tryCatch_except {p : ExceptT ε (Program Call Answer) α}
    {handler : ε → ExceptT ε (Program Call Answer) α} (hp : Only K p.run)
    (hhandler : ∀ e, Only K (handler e).run) : Only K (tryCatch p handler : ExceptT ε _ α).run :=
  Only.bind hp fun
    | .ok _ => trivial
    | .error e => hhandler e

end Except

end Program

/-- A moment of a run of programs that follow a script. -/
structure Scripted [DecidableEq ι] (perform : Chance → (c : Call) → Store → Answer c × Store)
    (start : Store) (issues : ι → History ι Store Answer → Call → Prop)
    (past : History ι Store Answer) (m : Moment ι Store Answer) : Prop where
  before : m.before = past.store start
  happened : m.Happened perform
  issues : issues m.proc (History.own m.proc past) m.call

namespace Discipline

section Lasting

variable {D : Discipline ι Store Answer} {perform : Chance → (c : Call) → Store → Answer c × Store}
  {start : Store} {i : ι} {K : Call → Prop} {A B : History ι Store Answer → Prop}

variable (D perform start i K) in
/-- An assertion that neither the other programs falsify nor a call of kind `K` of `i` itself. -/
def Lasting (A : History ι Store Answer → Prop) : Prop :=
  ∀ past m, A past → D.Allowed perform start past m → (m.proc = i → K m.call) → A (m :: past)

theorem Lasting.stable (hA : D.Lasting perform start i K A) : D.Stable perform start i A :=
  fun past m h hm hallowed => hA past m h hallowed fun hproc => absurd hproc hm

theorem Lasting.and (hA : D.Lasting perform start i K A) (hB : D.Lasting perform start i K B) :
    D.Lasting perform start i K fun past => A past ∧ B past :=
  fun past m h hallowed hK => ⟨hA past m h.1 hallowed hK, hB past m h.2 hallowed hK⟩

theorem Lasting.or (hA : D.Lasting perform start i K A) (hB : D.Lasting perform start i K B) :
    D.Lasting perform start i K fun past => A past ∨ B past :=
  fun past m h hallowed hK =>
    h.imp (fun h => hA past m h hallowed hK) fun h => hB past m h hallowed hK

theorem Lasting.of_imp (P : Prop) (hA : D.Lasting perform start i K A) :
    D.Lasting perform start i K fun past => P → A past :=
  fun past m h hallowed hK hP => hA past m (h hP) hallowed hK

theorem Lasting.mono {K' : Call → Prop} (hK : ∀ c, K' c → K c)
    (hA : D.Lasting perform start i K A) : D.Lasting perform start i K' A :=
  fun past m h hallowed hK' => hA past m h hallowed fun hproc => hK _ (hK' hproc)

/-- A program whose calls are harmless keeps what they keep. -/
theorem Safe.yields {R : α → Prop} {p : Program Call Answer α} {past : History ι Store Answer}
    (hp : p.Yields K R) (hA : D.Lasting perform start i K A) (h : A past)
    (hcall : ∀ past c chance, K c → A past → D.inv past →
      D.guarantee past (Pool.momentOf perform i chance c (past.store start)) ∧
      (D.admits past (Pool.momentOf perform i chance c (past.store start)) →
        D.inv (Pool.momentOf perform i chance c (past.store start) :: past))) :
    D.Safe perform start i p past fun a past => R a ∧ A past := by
  induction p generalizing past with
  | done a => exact Safe.done (fun past m h hm hallowed =>
      ⟨h.1, hA.stable past m h.2 hm hallowed⟩) ⟨hp, h⟩
  | call c next ih =>
    refine Safe.call A hA.stable h fun past h hinv chance => ?_
    obtain ⟨hguarantee, hkeeps⟩ := hcall past c chance hp.1 h hinv
    refine ⟨hguarantee, fun hadmits => ⟨hkeeps hadmits, ih _ (hp.2 _) (hA past _ h ?_ fun _ => hp.1)⟩⟩
    exact ⟨rfl, ⟨chance, rfl, rfl⟩, hguarantee, hadmits, hinv, hkeeps hadmits⟩

end Lasting

variable [DecidableEq ι] {perform : Chance → (c : Call) → Store → Answer c × Store} {start : Store}
  {issues : ι → History ι Store Answer → Call → Prop}

/-- Every program issues only what its script allows. -/
def script (issues : ι → History ι Store Answer → Call → Prop) : Discipline ι Store Answer where
  inv := fun _ => True
  guarantee := fun past m => issues m.proc (History.own m.proc past) m.call

theorem Safe.script_call {i : ι} {c : Call} {next : Answer c → Program Call Answer α}
    {past : History ι Store Answer} {post : α → History ι Store Answer → Prop}
    (P : History ι Store Answer → Prop) (hP : P (past.own i))
    (hissues : ∀ own, P own → issues i own c)
    (hnext : ∀ past chance s, P (History.own i past) →
      (script issues).Safe perform start i (next (perform chance c s).1)
        (Pool.momentOf perform i chance c s :: past) post) :
    (script issues).Safe perform start i (.call c next) past post :=
  Safe.call_own P hP fun past hpast _ chance =>
    ⟨hissues _ hpast, fun _ => ⟨trivial, hnext past chance _ hpast⟩⟩

theorem Safe.script_done {i : ι} {a : α} {past : History ι Store Answer}
    (post : α → History ι Store Answer → Prop) (h : post a (past.own i)) :
    (script issues).Safe perform start i (.done a : Program Call Answer α) past
      fun a past => post a (past.own i) :=
  Safe.done (Stable.own i (post a)) h

/-- A program whose calls are all of one kind is safe where that kind may always be issued. -/
theorem Safe.script_only {i : ι} {K : Call → Prop} {p : Program Call Answer α}
    {past : History ι Store Answer} (P : History ι Store Answer → Prop) (hp : p.Only K)
    (hP : P (past.own i)) (hissues : ∀ own c, P own → K c → issues i own c)
    (hkeep : ∀ own chance c s, P own → K c → P (Pool.momentOf perform i chance c s :: own)) :
    (script issues).Safe perform start i p past fun _ past => P (past.own i) := by
  induction p generalizing past with
  | done a => exact Safe.script_done (fun _ => P) hP
  | call c next ih =>
    refine Safe.script_call P hP (fun own hown => hissues own c hown hp.1) ?_
    intro past chance s hpast
    refine ih _ (hp.2 _) ?_
    rw [Pool.own_momentOf]
    exact hkeep _ chance c s hpast hp.1

section Exec

variable {programs : ι → Program Call Answer α} {post : ι → α → History ι Store Answer → Prop}

private theorem script_admits (issues : ι → History ι Store Answer → Call → Prop) :
    (past : History ι Store Answer) → Along (script issues).admits past
  | [] => trivial
  | _ :: past => ⟨trivial, script_admits issues past⟩

theorem exec_scripted (h : ∀ i, (script issues).Safe perform start i (programs i) [] (post i))
    (schedule : List (ι × Chance)) :
    Along (Scripted perform start issues)
      ((Pool.launch start programs).exec perform schedule).history :=
  ((Pool.exec_happened perform start programs schedule).and
    (exec_guarantee trivial h schedule (script_admits issues _))).mono
      fun _ _ h => ⟨h.1.1, h.1.2, h.2⟩

theorem exec_script_post (h : ∀ i, (script issues).Safe perform start i (programs i) [] (post i))
    (schedule : List (ι × Chance)) {i : ι} {a : α}
    (hdone : ((Pool.launch start programs).exec perform schedule).running i = .done a) :
    post i a ((Pool.launch start programs).exec perform schedule).history :=
  (exec_safe trivial h schedule (script_admits issues _)).2 i a hdone

end Exec

end Discipline

end Concurrent
