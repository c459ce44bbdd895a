import Impresspress.RateLimits.Limiter

/-!
# Budgets over a run of calls

Calls come one after the other, each under a limit of its own. As long as no count begins anew and
no call comes with more than a throttled bucket has been charged, a bucket's count is the calls
admitted since the bucket was reset, or the bucket refuses.

## Main definitions

* `RateLimits.events`: the calls of a run, each with the buckets it finds.
* `RateLimits.admitted`: the calls on a key that were admitted since its bucket was reset.
* `RateLimits.Event.Meets`, `RateLimits.KeepsBudget`: what a call must not do, and what then holds.

## Main results

* `RateLimits.Counts.after`: what the counts say stays true over one call.
* `RateLimits.drops_after`, `RateLimits.throttled_after`: what is dropped for a new key, and that a
  throttled bucket stays.
* `RateLimits.events_invariant`, `RateLimits.refuses_events`: both over a run.
-/

namespace RateLimits

structure Call where
  now : ℕ
  key : String
  limit : RateLimit
  deriving DecidableEq, Repr

/-- A call, with the buckets it finds. -/
structure Event where
  before : Buckets
  call : Call

variable (capacity : ℕ)

namespace Event

def outcome (e : Event) : Except ℕ ℕ × Buckets :=
  check capacity e.before e.call.now e.call.key e.call.limit

def answer (e : Event) : Except ℕ ℕ := (e.outcome capacity).1

def after (e : Event) : Buckets := (e.outcome capacity).2

/-- The bucket as it stands in this call. -/
def inForce (e : Event) (k : String) (b : RateBucket) : RateBucket :=
  if e.call.key = k then { b with limit := e.call.limit } else b

/-- The window of the key's bucket has not passed. -/
def Open (e : Event) (k : String) : Prop :=
  ∀ b, e.before.lookup k = some b → (e.inForce k b).expired e.call.now = false

/-- The call is the first on its key since the bucket was made or reset. -/
def starts (e : Event) : Bool :=
  (e.before.lookup e.call.key).all fun b => (e.inForce e.call.key b).expired e.call.now

/-- In an open window the count does not begin anew, and no call comes with more than a throttled
bucket has been charged. -/
def Meets (e : Event) : Prop :=
  ∀ b, e.before.lookup e.call.key = some b →
    (e.inForce e.call.key b).expired e.call.now = false →
      b.count + 1 < 2 ^ 32 ∧ (b.throttled = true → e.call.limit.maxRequests ≤ b.count)

instance (e : Event) : Decidable e.Meets :=
  inferInstanceAs (Decidable (∀ b ∈ e.before.lookup e.call.key, _))

end Event

def events : Buckets → List Call → List Event
  | _, [] => []
  | m, c :: calls => ⟨m, c⟩ :: events (Event.after capacity ⟨m, c⟩) calls

/-- The calls on the key that were admitted since its bucket was reset. -/
def tally (key : String) (n : ℕ) (e : Event) : ℕ :=
  if e.call.key = key then
    (if e.starts then 0 else n) + if (e.answer capacity).isOk then 1 else 0
  else n

def admitted (key : String) (past : List Event) : ℕ := past.foldl (tally capacity key) 0

/-- What a call may make of a bucket that stays. -/
inductive Change (now : ℕ) (b : RateBucket) : RateBucket → Prop
  | kept : Change now b b
  | charged (limit : RateLimit) : Change now b { b with limit, count := b.count + 1 }
  | reset (limit : RateLimit) (hpassed : { b with limit : RateBucket }.expired now = true) :
      Change now b ⟨1, now, limit⟩

structure KeepsBudget (es : List Event) : Prop where
  bounded : ∀ e ∈ es, (e.after capacity).size ≤ capacity
  /-- What is left is the budget less the calls admitted, this one included. -/
  budget : ∀ past e later r, es = past ++ e :: later → e.answer capacity = .ok r →
    r + admitted capacity e.call.key (past ++ [e]) = e.call.limit.maxRequests
  resets : ∀ e ∈ es, ∀ k b b', e.before.lookup k = some b → (e.after capacity).lookup k = some b' →
    Change e.call.now b b'
  /-- A bucket in an open window is dropped for room only, a throttled one after all others. -/
  drops : ∀ e ∈ es, ∀ k b, e.before.lookup k = some b → (e.after capacity).lookup k = none →
    b.expired e.call.now = true ∨ capacity ≤ e.before.size ∧ (b.throttled = true →
      ∀ k' b', e.before.lookup k' = some b' → b'.expired e.call.now = false →
        b'.throttled = false → (e.after capacity).lookup k' = none)
  refuses : ∀ past e during later k b, es = past ++ e :: during ++ later →
    e.before.lookup k = some b → b.throttled = true →
    (∀ e' ∈ e :: during, e'.Open k ∧ 10 * throttledLive e'.before e'.call.now < 9 * capacity) →
    ∀ e' ∈ e :: during, e'.call.key = k → ∀ r, e'.answer capacity ≠ .ok r

variable {capacity} {m : Buckets} {now : ℕ} {key k : String} {b : RateBucket} {limit : RateLimit}
  {e : Event} {past later : List Event} {calls : List Call}

/-! ## One call -/

@[simp] theorem inForce_self :
    e.inForce e.call.key b = { b with limit := e.call.limit } := if_pos rfl

theorem inForce_ne (hk : e.call.key ≠ k) : e.inForce k b = b := if_neg hk

theorem answer_eq : e.answer capacity =
    answer (charged e.before e.call.now e.call.key e.call.limit) e.call.now e.call.limit := by
  rw [Event.answer, Event.outcome, check_eq]

theorem lookup_after : (e.after capacity).lookup e.call.key =
    some (charged e.before e.call.now e.call.key e.call.limit) := lookup_check

theorem lookup_after_ne (hk : e.call.key ≠ k) : (e.after capacity).lookup k =
    (roomFor e.before capacity e.call.now e.call.key).lookup k := lookup_check_ne hk.symm

theorem charged_of_starts (hstarts : e.starts = true) :
    charged e.before e.call.now e.call.key e.call.limit = ⟨1, e.call.now, e.call.limit⟩ := by
  unfold charged
  cases hb : e.before.lookup e.call.key with
  | none => simp [RateBucket.renew, RateBucket.charge, RateBucket.expired]
  | some b =>
    rw [Event.starts, hb, Option.all_some, inForce_self] at hstarts
    rw [Option.getD_some, RateBucket.renew, if_pos hstarts]
    rfl

theorem charged_of_open (hb : e.before.lookup e.call.key = some b)
    (hopen : (e.inForce e.call.key b).expired e.call.now = false) :
    charged e.before e.call.now e.call.key e.call.limit =
      ⟨(b.count + 1) % 2 ^ 32, b.windowStart, e.call.limit⟩ := by
  rw [inForce_self] at hopen
  rw [charged, hb, Option.getD_some, RateBucket.renew, if_neg (Bool.not_eq_true _ ▸ hopen)]
  rfl

theorem starts_or_open : e.starts = true ∨ e.starts = false ∧ ∃ b,
    e.before.lookup e.call.key = some b ∧
      (e.inForce e.call.key b).expired e.call.now = false := by
  cases hb : e.before.lookup e.call.key with
  | none => exact .inl (by rw [Event.starts, hb]; rfl)
  | some b =>
    cases hopen : (e.inForce e.call.key b).expired e.call.now with
    | true => exact .inl (by rw [Event.starts, hb, Option.all_some, hopen])
    | false => exact .inr ⟨by rw [Event.starts, hb, Option.all_some, hopen], b, rfl, hopen⟩

theorem answer_ok_iff {r : ℕ} :
    answer b now limit = .ok r ↔ r + b.count = limit.maxRequests := by
  unfold answer
  split_ifs with h
  · exact ⟨nofun, fun hr => by omega⟩
  · rw [Except.ok.injEq]
    omega

theorem answer_isOk : (answer b now limit).isOk = decide (b.count ≤ limit.maxRequests) := by
  unfold answer
  split_ifs with h
  · exact (decide_eq_false (not_le.mpr h)).symm
  · exact (decide_eq_true (not_lt.mp h)).symm

/-! ## Counts -/

/-- A bucket's count is what was admitted, or the bucket has refused. -/
def Counts (capacity : ℕ) (past : List Event) (m : Buckets) : Prop :=
  ∀ k b, m.lookup k = some b →
    b.count = admitted capacity k past ∨ b.limit.maxRequests < b.count

theorem admitted_append : admitted capacity k (past ++ [e]) =
    tally capacity k (admitted capacity k past) e := by
  rw [admitted, List.foldl_append]
  rfl

theorem admitted_append_ne (hk : e.call.key ≠ k) :
    admitted capacity k (past ++ [e]) = admitted capacity k past := by
  rw [admitted_append, tally, if_neg hk]

/-- What the count of the bucket that is charged says. -/
theorem Counts.charged (h : Counts capacity past e.before) (hmeets : e.Meets) :
    (charged e.before e.call.now e.call.key e.call.limit).count =
        admitted capacity e.call.key (past ++ [e]) ∨
      e.call.limit.maxRequests <
        (RateLimits.charged e.before e.call.now e.call.key e.call.limit).count := by
  rw [admitted_append, tally, if_pos rfl, answer_eq, answer_isOk]
  rcases starts_or_open (e := e) with hstarts | ⟨hstarts, b, hb, hopen⟩
  · rw [charged_of_starts hstarts, hstarts]
    simp only [↓reduceIte, Nat.zero_add, decide_eq_true_eq]
    split_ifs with hle
    · exact .inl rfl
    · exact .inr (not_le.mp hle)
  · obtain ⟨hcount, hbudget⟩ := hmeets b hb hopen
    rw [charged_of_open hb hopen, hstarts, Nat.mod_eq_of_lt hcount]
    simp only [Bool.false_eq_true, ↓reduceIte, decide_eq_true_eq]
    split_ifs with hle
    · refine .inl (congrArg (· + 1) ((h _ b hb).resolve_right fun hrefused => ?_))
      have := hbudget (decide_eq_true hrefused.le)
      omega
    · exact .inr (not_le.mp hle)

theorem Counts.after (h : Counts capacity past e.before) (hmeets : e.Meets) :
    Counts capacity (past ++ [e]) (e.after capacity) := by
  intro k b hb
  by_cases hk : e.call.key = k
  · subst hk
    rw [lookup_after, Option.some.injEq] at hb
    subst hb
    have hlimit : (RateLimits.charged e.before e.call.now e.call.key e.call.limit).limit =
        e.call.limit := by
      rcases starts_or_open (e := e) with hstarts | ⟨-, b, hb, hopen⟩
      · rw [charged_of_starts hstarts]
      · rw [charged_of_open hb hopen]
    rw [hlimit]
    exact h.charged hmeets
  · rw [lookup_after_ne hk] at hb
    rw [admitted_append_ne hk]
    exact h k b (lookup_of_lookup_roomFor hb)

theorem Counts.budget (h : Counts capacity past e.before) (hmeets : e.Meets) {r : ℕ}
    (hr : e.answer capacity = .ok r) :
    r + admitted capacity e.call.key (past ++ [e]) = e.call.limit.maxRequests := by
  rw [answer_eq, answer_ok_iff] at hr
  rw [← (h.charged hmeets).resolve_right (by omega)]
  exact hr

/-! ## Buckets that stay, and buckets that go -/

theorem change_after (hmeets : e.Meets) {b' : RateBucket} (hb : e.before.lookup k = some b)
    (hb' : (e.after capacity).lookup k = some b') : Change e.call.now b b' := by
  by_cases hk : e.call.key = k
  · subst hk
    rw [lookup_after, Option.some.injEq] at hb'
    subst hb'
    cases hopen : (e.inForce e.call.key b).expired e.call.now with
    | true =>
      rw [charged_of_starts (by rw [Event.starts, hb, Option.all_some, hopen])]
      exact .reset _ (inForce_self ▸ hopen)
    | false =>
      rw [charged_of_open hb hopen, Nat.mod_eq_of_lt (hmeets b hb hopen).1]
      exact .charged _
  · rw [lookup_after_ne hk] at hb'
    cases hb.symm.trans (lookup_of_lookup_roomFor hb')
    exact .kept

/-- A bucket is dropped for a new key, when it is expired or among the cheapest. -/
theorem dropped_after (hb : e.before.lookup k = some b)
    (hnone : (e.after capacity).lookup k = none) :
    e.call.key ≠ k ∧ (e.before.lookup e.call.key = none ∧ capacity ≤ e.before.size) ∧
      (b.expired e.call.now = true ∨ victim k b ∈ (victims (e.before.live e.call.now)).take
        (excess (e.before.live e.call.now) capacity)) := by
  have hk : e.call.key ≠ k := fun hk => by
    subst hk
    exact Option.some_ne_none _ (lookup_after.symm.trans hnone)
  rw [lookup_after_ne hk, roomFor] at hnone
  split_ifs at hnone with hfull
  · refine ⟨hk, hfull, ?_⟩
    have hdropped : (evictForNewKey e.before capacity e.call.now).lookup k = some b ∨ _ :=
      lookup_evictForNewKey hb
    rcases hdropped with hkept | ⟨-, hgone⟩
    · exact absurd (hkept.symm.trans hnone) (Option.some_ne_none _)
    · exact hgone
  · exact absurd (hb.symm.trans hnone) (Option.some_ne_none _)

theorem drops_after (hb : e.before.lookup k = some b)
    (hnone : (e.after capacity).lookup k = none) :
    b.expired e.call.now = true ∨ capacity ≤ e.before.size ∧ (b.throttled = true →
      ∀ k' b', e.before.lookup k' = some b' → b'.expired e.call.now = false →
        b'.throttled = false → (e.after capacity).lookup k' = none) := by
  obtain ⟨-, hfull, hexpired | hv⟩ := dropped_after hb hnone
  · exact .inl hexpired
  · refine .inr ⟨hfull.2, fun hthrottled k' b' hb' hlive hunder => ?_⟩
    have hk' : e.call.key ≠ k' := fun hk' => by
      subst hk'
      exact Option.some_ne_none _ (hb'.symm.trans hfull.1)
    rw [lookup_after_ne hk', roomFor, if_pos hfull]
    exact lookup_evictForNewKey_of_victim
      (mem_take_of_throttled hv hthrottled (lookup_live.mpr ⟨hb', hlive⟩) hunder)

/-- A throttled bucket in an open window stays throttled, and its key is refused. -/
theorem throttled_after (hmeets : e.Meets) (hb : e.before.lookup k = some b)
    (hthrottled : b.throttled = true) (hopen : e.Open k)
    (hfew : 10 * throttledLive e.before e.call.now < 9 * capacity) :
    (∃ b', (e.after capacity).lookup k = some b' ∧ b'.throttled = true) ∧
      (e.call.key = k → ∀ r, e.answer capacity ≠ .ok r) := by
  by_cases hk : e.call.key = k
  · subst hk
    obtain ⟨hcount, hbudget⟩ := hmeets b hb (hopen b hb)
    have hmax := hbudget hthrottled
    rw [lookup_after, answer_eq, charged_of_open hb (hopen b hb), Nat.mod_eq_of_lt hcount]
    refine ⟨⟨_, rfl, decide_eq_true (Nat.le_succ_of_le hmax)⟩, fun _ r hr => ?_⟩
    have := answer_ok_iff.mp hr
    dsimp only at this
    omega
  · refine ⟨?_, fun heq => absurd heq hk⟩
    cases hafter : (e.after capacity).lookup k with
    | some b' =>
      rw [lookup_after_ne hk] at hafter
      cases hb.symm.trans (lookup_of_lookup_roomFor hafter)
      exact ⟨b, rfl, hthrottled⟩
    | none =>
      obtain ⟨-, -, hexpired | hv⟩ := dropped_after hb hafter
      · have := hopen b hb
        rw [inForce_ne hk, hexpired] at this
        exact nomatch this
      · exact absurd (le_throttledLive_of_mem_take hthrottled hv) (not_le.mpr hfew)

/-! ## Runs -/

/-- What holds at the start and is kept by every call is found by every call of a run. -/
theorem events_invariant {I : List Event → Buckets → Prop}
    (hstep : ∀ past e, I past e.before → e.Meets → I (past ++ [e]) (e.after capacity))
    (done : List Event) (hm : I done m) (hmeets : ∀ e ∈ events capacity m calls, e.Meets)
    (hsplit : events capacity m calls = past ++ e :: later) : I (done ++ past) e.before := by
  induction past generalizing m calls done with
  | nil =>
    cases calls with
    | nil => cases hsplit
    | cons c calls =>
      obtain ⟨rfl, -⟩ := List.cons.inj hsplit
      rw [List.append_nil]
      exact hm
  | cons first past ih =>
    cases calls with
    | nil => cases hsplit
    | cons c calls =>
      obtain ⟨rfl, hrest⟩ := List.cons.inj hsplit
      rw [List.append_cons]
      exact ih _ (hstep _ _ hm (hmeets _ List.mem_cons_self))
        (fun e he => hmeets e (List.mem_cons_of_mem _ he)) hrest

/-- What is left of a run is a run. -/
theorem events_rest (hsplit : events capacity m calls = past ++ e :: later) :
    ∃ calls', e :: later = events capacity e.before calls' := by
  induction past generalizing m calls with
  | nil =>
    cases calls with
    | nil => cases hsplit
    | cons c calls =>
      have hsplit : _ = e :: later := hsplit
      obtain ⟨rfl, -⟩ := List.cons.inj hsplit
      exact ⟨c :: calls, hsplit.symm⟩
  | cons first past ih =>
    cases calls with
    | nil => cases hsplit
    | cons c calls => exact ih (List.cons.inj hsplit).2

/-- While the window is open, and few are throttled, a throttled key is refused. -/
theorem refuses_events {during : List Event} (hmeets : ∀ e ∈ during, e.Meets)
    (hsplit : events capacity m calls = during ++ later) (hb : m.lookup k = some b)
    (hthrottled : b.throttled = true)
    (hopen : ∀ e ∈ during, e.Open k ∧ 10 * throttledLive e.before e.call.now < 9 * capacity) :
    ∀ e ∈ during, e.call.key = k → ∀ r, e.answer capacity ≠ .ok r := by
  induction during generalizing m calls b with
  | nil => exact List.forall_mem_nil _
  | cons first during ih =>
    cases calls with
    | nil => cases hsplit
    | cons c calls =>
      obtain ⟨rfl, hrest⟩ := List.cons.inj hsplit
      obtain ⟨hfirst, hmeets⟩ := List.forall_mem_cons.mp hmeets
      obtain ⟨⟨hnow, hfew⟩, hopen⟩ := List.forall_mem_cons.mp hopen
      obtain ⟨⟨b', hb', hthrottled'⟩, hrefused⟩ := throttled_after hfirst hb hthrottled hnow hfew
      exact List.forall_mem_cons.mpr ⟨hrefused, ih hmeets hrest hb' hthrottled' hopen⟩

theorem check_keepsBudget (hcapacity : 1 ≤ capacity) (calls : List Call)
    (hmeets : ∀ e ∈ events capacity ∅ calls, e.Meets) :
    KeepsBudget capacity (events capacity ∅ calls) where
  bounded e he := by
    obtain ⟨past, later, hsplit⟩ := List.append_of_mem he
    have hsize := events_invariant (I := fun _ m => m.size ≤ capacity)
      (fun _ _ h _ => size_check_le hcapacity h) [] (Nat.zero_le _) hmeets hsplit
    exact size_check_le hcapacity hsize
  budget past e later r hsplit hr := by
    have hcounts := events_invariant (I := Counts capacity) (fun _ _ h hmeets => h.after hmeets)
      [] (fun k b hb => by rw [AList.lookup_empty] at hb; cases hb) hmeets hsplit
    exact hcounts.budget (hmeets e (hsplit ▸ List.mem_append_right _ List.mem_cons_self)) hr
  resets e he k b b' hb hb' := change_after (hmeets e he) hb hb'
  drops e _ k b hb hnone := drops_after hb hnone
  refuses past e during later k b hsplit hb hthrottled hopen := by
    rw [List.append_assoc] at hsplit
    obtain ⟨calls', hrest⟩ := events_rest hsplit
    refine refuses_events (fun e' he' => hmeets e' ?_) hrest.symm hb hthrottled hopen
    rw [hsplit]
    exact List.mem_append_right _ (List.mem_append_left _ he')

/-- Two clients and a flood: the throttled one stays refused, and a new key takes the place of the
other. -/
def flooded : List Call :=
  [⟨0, "victim:auth", ⟨1, 60⟩⟩, ⟨1, "victim:auth", ⟨1, 60⟩⟩, ⟨2, "a:auth", ⟨2, 60⟩⟩,
    ⟨3, "b:auth", ⟨2, 60⟩⟩, ⟨4, "victim:auth", ⟨1, 60⟩⟩]

theorem check_keepsBudget_flooded : KeepsBudget 2 (events 2 ∅ flooded) :=
  check_keepsBudget (by decide) flooded (by decide)

example : (events 2 ∅ flooded).map (fun e => ((e.answer 2).isOk, (e.after 2).keys)) =
    [(true, ["victim:auth"]), (false, ["victim:auth"]), (true, ["a:auth", "victim:auth"]),
      (true, ["b:auth", "victim:auth"]), (false, ["victim:auth", "b:auth"])] := by decide

/-! ## A count that begins anew -/

def afterCalls (capacity : ℕ) (m : Buckets) (calls : List Call) : Buckets :=
  calls.foldl (fun m c => Event.after capacity ⟨m, c⟩) m

theorem events_concat {c : Call} : events capacity m (calls ++ [c]) =
    events capacity m calls ++ [⟨afterCalls capacity m calls, c⟩] := by
  induction calls generalizing m with
  | nil => rfl
  | cons first calls ih => exact congrArg (⟨m, first⟩ :: ·) ih

/-- The same call once more, at the same moment. -/
theorem charged_again {c : Call} {n : ℕ} (hb : m.lookup c.key = some ⟨n, c.now, c.limit⟩) :
    charged m c.now c.key c.limit = ⟨(n + 1) % 2 ^ 32, c.now, c.limit⟩ :=
  charged_of_open (e := ⟨m, c⟩) hb (by simp [Event.inForce, RateBucket.expired])

theorem lookup_afterCalls_replicate (c : Call) (n : ℕ) :
    (afterCalls capacity ∅ (List.replicate (n + 1) c)).lookup c.key =
      some ⟨(n + 1) % 2 ^ 32, c.now, c.limit⟩ := by
  induction n with
  | zero =>
    have hstarts : Event.starts ⟨∅, c⟩ = true := by rw [Event.starts, AList.lookup_empty]; rfl
    exact lookup_after.trans (congrArg some (charged_of_starts hstarts))
  | succ n ih =>
    rw [List.replicate_succ', afterCalls, List.foldl_append]
    refine (lookup_after (e := ⟨_, c⟩)).trans (congrArg some ((charged_again ih).trans ?_))
    rw [Nat.mod_add_mod]

/-- Ten mails an hour. -/
def RateLimit.authEmail : RateLimit := ⟨10, 3600 * 10 ^ 9⟩

def mail : Call := ⟨0, "203.0.113.9:auth_email", RateLimit.authEmail⟩

/-- The call with which the count begins anew is admitted with the whole budget left. -/
theorem not_keepsBudget_of_wraps {n : ℕ} (hn : (n + 2) % 2 ^ 32 = 0) :
    ¬ KeepsBudget 1 (events 1 ∅ (List.replicate (n + 2) mail)) := by
  intro h
  rw [List.replicate_succ', events_concat] at h
  have hlookup : (afterCalls 1 ∅ (List.replicate (n + 1) mail)).lookup mail.key = _ :=
    lookup_afterCalls_replicate mail n
  have hcharged := charged_again hlookup
  rw [Nat.mod_add_mod, hn] at hcharged
  have hok : Event.answer 1 ⟨afterCalls 1 ∅ (List.replicate (n + 1) mail), mail⟩ = .ok 10 := by
    rw [answer_eq, hcharged]
    rfl
  have hbudget := h.budget _ _ [] 10 rfl hok
  rw [admitted_append, tally, if_pos rfl, hok] at hbudget
  have hmax : mail.limit.maxRequests = 10 := rfl
  simp only [Except.isOk, Except.toBool, ↓reduceIte, hmax] at hbudget
  omega

theorem not_always_keepsBudget : ¬ ∀ (capacity : ℕ) (calls : List Call), 1 ≤ capacity →
    calls.Pairwise (fun c c' => c.now ≤ c'.now) → KeepsBudget capacity (events capacity ∅ calls) :=
  fun h => not_keepsBudget_of_wraps (n := 2 ^ 32 - 2) (by decide)
    (h 1 _ le_rfl (List.pairwise_replicate.mpr (.inr le_rfl)))

end RateLimits
