import Impresspress.Concurrent.Fallible

/-!
# Programs and the calls of them that fail

Which of its calls fail is not up to a program. Recording them makes a statement about single
failures possible: what a program leaves when no call fails, and what it leaves when one does.

## Main definitions

* `Concurrent.recording`: a store that keeps the calls that have failed.
* `Concurrent.Fallible.Attains`: a program that reaches its end, or stops at its first failed call.
* `Concurrent.Fallible.Settles`: what holds after the runs whose failed calls are of a given kind.

## Main results

* `Concurrent.Fallible.attains_bind`, `Concurrent.Fallible.attains_forM`: sequences and loops.
* `Concurrent.Fallible.settles_bind`, `Concurrent.Fallible.settles_attempt`: a failure that ends the
  program, and one that the program handles.
-/

namespace Concurrent

variable {Store Chance Call ε : Type} {Reply : Call → Type} {α β : Type}

/-- The store together with the calls that have failed, the latest first. -/
def recording (perform : Chance → (c : Call) → Store → Outcome ε Reply c × Store) (chance : Chance)
    (c : Call) (s : Store × List Call) : Outcome ε Reply c × (Store × List Call) :=
  let r := perform chance c s.1
  (r.1, (r.2, match r.1 with
    | .ok _ => s.2
    | .error _ => c :: s.2))

section Recording

variable {perform : Chance → (c : Call) → Store → Outcome ε Reply c × Store}

theorem recording_ok {chance : Chance} {c : Call} {s s' : Store} {reply : Reply c}
    (h : perform chance c s = (.ok reply, s')) (failed : List Call) :
    recording perform chance c (s, failed) = (.ok reply, (s', failed)) := by
  simp [recording, h]

theorem recording_error {chance : Chance} {c : Call} {s s' : Store} {e : ε}
    (h : perform chance c s = (.error e, s')) (failed : List Call) :
    recording perform chance c (s, failed) = (.error e, (s', c :: failed)) := by
  simp [recording, h]

/-- Nothing is taken off the record. -/
theorem recording_grows (p : Program Call (Outcome ε Reply) α) (s : Store) (failed : List Call) :
    p.Ensures (recording perform) (s, failed) fun _ x => failed <:+ x.2 := by
  induction p generalizing s failed with
  | done a => exact List.suffix_refl _
  | call c next ih =>
    intro chance
    cases h : perform chance c s with
    | mk outcome s' =>
      cases outcome with
      | ok reply =>
        rw [recording_ok h]
        exact ih _ _ _
      | error e =>
        rw [recording_error h]
        exact (ih _ _ _).mono fun _ _ hsuffix => (List.suffix_cons c failed).trans hsuffix

/-- Calls that keep a property of the store keep it to the end. -/
theorem Program.Only.keeps {K : Call → Prop} {I : Store → Prop}
    {p : Program Call (Outcome ε Reply) α} (hp : p.Only K)
    (hK : ∀ chance c s, K c → I s → I (perform chance c s).2) {s : Store} (hs : I s)
    (failed : List Call) :
    p.Ensures (recording perform) (s, failed) fun _ x => I x.1 := by
  induction p generalizing s failed with
  | done a => exact hs
  | call c next ih => exact fun chance => ih _ (hp.2 _) (hK chance c s hp.1 hs) _

/-- What is recorded as failed was recorded before, or is a call of the program. -/
theorem Program.Only.records {K : Call → Prop} {p : Program Call (Outcome ε Reply) α}
    (hp : p.Only K) (s : Store) (failed : List Call) :
    p.Ensures (recording perform) (s, failed) fun _ x => ∀ c ∈ x.2, c ∈ failed ∨ K c := by
  induction p generalizing s failed with
  | done a => exact fun c hc => .inl hc
  | call c next ih =>
    intro chance
    cases h : perform chance c s with
    | mk outcome s' =>
      cases outcome with
      | ok reply =>
        rw [recording_ok h]
        exact ih _ (hp.2 _) _ _
      | error e =>
        rw [recording_error h]
        refine (ih _ (hp.2 _) s' (c :: failed)).mono fun _ x hx c' hc' => ?_
        rcases hx c' hc' with hmem | hK
        · rcases List.mem_cons.mp hmem with rfl | hmem
          · exact .inr hp.1
          · exact .inl hmem
        · exact .inr hK

end Recording

namespace Fallible

section Only

variable {K : Call → Prop}

theorem only_call {c : Call} (h : K c) : (call c : Fallible ε Reply (Reply c)).run.Only K :=
  ⟨h, fun _ => trivial⟩

theorem only_pure (a : α) : (pure a : Fallible ε Reply α).run.Only K := trivial

theorem only_throw (e : ε) : (throw e : Fallible ε Reply α).run.Only K := trivial

theorem only_bind {p : Fallible ε Reply β} {f : β → Fallible ε Reply α} (hp : p.run.Only K)
    (hf : ∀ b, (f b).run.Only K) : (p >>= f).run.Only K :=
  Program.Only.bind_except hp hf

theorem only_attempt {p : Fallible ε Reply α} (hp : p.run.Only K) : (attempt p).run.Only K :=
  Program.Only.bind hp fun _ => trivial

theorem only_forM {γ : Type} {f : γ → Fallible ε Reply PUnit} {todo : List γ}
    (hf : ∀ x ∈ todo, (f x).run.Only K) : (todo.forM f).run.Only K := by
  induction todo with
  | nil => exact only_pure _
  | cons x todo ih =>
    exact only_bind (hf x List.mem_cons_self) fun _ => ih fun y hy => hf y (List.mem_cons_of_mem x hy)

end Only

variable (perform : Chance → (c : Call) → Store → Outcome ε Reply c × Store)

/-- The program reaches its end, with `P`, or it stops at its first failed call, with `E`. -/
def Attains (p : Fallible ε Reply α) (s : Store) (P : α → Store → Prop)
    (E : ε → Call → Store → Prop) : Prop :=
  ∀ failed, p.run.Ensures (recording perform) (s, failed) fun result x =>
    match result with
    | .ok a => x.2 = failed ∧ P a x.1
    | .error e => ∃ c, x.2 = c :: failed ∧ E e c x.1

/-- `post` holds after every run whose failed calls, those before it included, meet `admits`. -/
def Settles (admits : List Call → Prop) (p : Fallible ε Reply α) (s : Store) (failed : List Call)
    (post : Except ε α → Store → List Call → Prop) : Prop :=
  p.run.Ensures (recording perform) (s, failed) fun result x =>
    admits x.2 → post result x.1 x.2

variable {perform} {P : α → Store → Prop} {E : ε → Call → Store → Prop}

theorem attains_pure {a : α} {s : Store} (h : P a s) :
    Attains perform (pure a : Fallible ε Reply α) s P E :=
  fun _ => ⟨rfl, h⟩

theorem attains_call {c : Call} {s : Store} {P : Reply c → Store → Prop}
    (hok : ∀ chance reply s', perform chance c s = (.ok reply, s') → P reply s')
    (herror : ∀ chance e s', perform chance c s = (.error e, s') → E e c s') :
    Attains perform (call c : Fallible ε Reply (Reply c)) s P E := by
  intro failed chance
  cases h : perform chance c s with
  | mk outcome s' =>
    cases outcome with
    | ok reply =>
      rw [recording_ok h]
      exact ⟨rfl, hok chance reply s' h⟩
    | error e =>
      rw [recording_error h]
      exact ⟨c, rfl, herror chance e s' h⟩

theorem attains_bind {p : Fallible ε Reply β} {f : β → Fallible ε Reply α} {s : Store}
    {Q : β → Store → Prop} (hp : Attains perform p s Q E)
    (hf : ∀ b s', Q b s' → Attains perform (f b) s' P E) :
    Attains perform (p >>= f) s P E := by
  intro failed
  refine Program.ensures_bind.mpr ((hp failed).mono fun result x h => ?_)
  obtain ⟨s', failed'⟩ := x
  cases result with
  | ok b =>
    obtain ⟨rfl, hmid⟩ := h
    exact hf b s' hmid _
  | error e => exact h

theorem Attains.mono {p : Fallible ε Reply α} {s : Store} {P' : α → Store → Prop}
    {E' : ε → Call → Store → Prop} (h : Attains perform p s P E)
    (hgood : ∀ a s, P a s → P' a s) (hbad : ∀ e c s, E e c s → E' e c s) :
    Attains perform p s P' E' := by
  intro failed
  refine (h failed).mono fun result x hx => ?_
  cases result with
  | ok a => exact ⟨hx.1, hgood _ _ hx.2⟩
  | error e =>
    obtain ⟨c, hfailed, hx⟩ := hx
    exact ⟨c, hfailed, hbad _ _ _ hx⟩

/-- A loop: `I` holds of what has been gone through so far. -/
theorem attains_forM {γ : Type} {f : γ → Fallible ε Reply PUnit} {I : List γ → Store → Prop}
    {todo : List γ} {l : List γ} {s : Store} (hs : I l s)
    (hf : ∀ x ∈ todo, ∀ past s, I past s →
      Attains perform (f x) s (fun _ s' => I (x :: past) s') E) :
    Attains perform (todo.forM f) s (fun _ s' => I (todo.reverse ++ l) s') E := by
  induction todo generalizing l s with
  | nil => exact attains_pure hs
  | cons x todo ih =>
    refine attains_bind (hf x List.mem_cons_self l s hs) fun _ s' hs' => ?_
    rw [List.reverse_cons, List.append_assoc]
    exact ih hs' fun y hy => hf y (List.mem_cons_of_mem x hy)

section Settles

variable {admits : List Call → Prop} {post : Except ε α → Store → List Call → Prop}

theorem settles_pure {a : α} {s : Store} {failed : List Call}
    (h : admits failed → post (.ok a) s failed) :
    Settles perform admits (pure a : Fallible ε Reply α) s failed post := h

theorem settles_throw {e : ε} {s : Store} {failed : List Call}
    (h : admits failed → post (.error e) s failed) :
    Settles perform admits (throw e : Fallible ε Reply α) s failed post := h

/-- After failures that are not admitted nothing is promised. -/
theorem settles_of_not (hadmits : ∀ l l', l <:+ l' → admits l' → admits l)
    {p : Fallible ε Reply α} {s : Store} {failed : List Call} (h : ¬ admits failed) :
    Settles perform admits p s failed post :=
  (recording_grows p.run s failed).mono fun _ _ hsuffix hx =>
    absurd (hadmits _ _ hsuffix hx) h

/-- A program that stops at its first failed call, and what follows it. -/
theorem settles_bind {p : Fallible ε Reply β} {f : β → Fallible ε Reply α} {s : Store}
    {failed : List Call} {Q : β → Store → Prop} {E : ε → Call → Store → Prop}
    (hp : Attains perform p s Q E)
    (hf : ∀ b s', Q b s' → Settles perform admits (f b) s' failed post)
    (herror : ∀ e c s', E e c s' → admits (c :: failed) → post (.error e) s' (c :: failed)) :
    Settles perform admits (p >>= f) s failed post := by
  refine Program.ensures_bind.mpr ((hp failed).mono fun result x h => ?_)
  obtain ⟨s', failed'⟩ := x
  cases result with
  | ok b =>
    obtain ⟨rfl, hmid⟩ := h
    exact hf b s' hmid
  | error e =>
    obtain ⟨c, rfl, hbad⟩ := h
    exact herror e c s' hbad

/-- A program whose failure is looked at, and what follows it. -/
theorem settles_attempt (hadmits : ∀ l l', l <:+ l' → admits l' → admits l)
    {p : Fallible ε Reply β} {f : Except ε β → Fallible ε Reply α} {s : Store} {failed : List Call}
    {Q : β → Store → Prop} {E : ε → Call → Store → Prop} (hp : Attains perform p s Q E)
    (hf : ∀ b s', Q b s' → Settles perform admits (f (.ok b)) s' failed post)
    (herror : ∀ e c s', E e c s' → admits (c :: failed) →
      Settles perform admits (f (.error e)) s' (c :: failed) post) :
    Settles perform admits (attempt p >>= f) s failed post := by
  refine Program.ensures_bind.mpr (Program.ensures_bind.mpr ((hp failed).mono fun result x h => ?_))
  obtain ⟨s', failed'⟩ := x
  cases result with
  | ok b =>
    obtain ⟨rfl, hmid⟩ := h
    exact hf b s' hmid
  | error e =>
    obtain ⟨c, rfl, hbad⟩ := h
    by_cases hc : admits (c :: failed)
    · exact herror e c s' hbad hc
    · exact settles_of_not hadmits hc

/-- A sequence, whatever its first part does with its failures. -/
theorem Settles.bind {p : Fallible ε Reply β} {f : β → Fallible ε Reply α} {s : Store}
    {failed : List Call} (hadmits : ∀ l l', l <:+ l' → admits l' → admits l)
    {Q : Except ε β → Store → List Call → Prop} (hp : Settles perform admits p s failed Q)
    (hf : ∀ b s' failed', Q (.ok b) s' failed' → Settles perform admits (f b) s' failed' post)
    (herror : ∀ e s' failed', Q (.error e) s' failed' → post (.error e) s' failed') :
    Settles perform admits (p >>= f) s failed post := by
  refine Program.ensures_bind.mpr (Program.Ensures.mono hp fun result x h => ?_)
  obtain ⟨s', failed'⟩ := x
  by_cases hx : admits failed'
  · cases result with
    | ok b => exact hf b s' failed' (h hx)
    | error e => exact fun _ => herror e s' failed' (h hx)
  · cases result with
    | ok b => exact settles_of_not hadmits hx
    | error e => exact fun hx' => absurd hx' hx

end Settles

end Fallible

end Concurrent
