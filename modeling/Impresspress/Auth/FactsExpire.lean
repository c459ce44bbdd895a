import Impresspress.Auth.Chain
import Impresspress.Auth.ChangesBump

/-!
# No token outlives the facts that it asserts

The clock and the version only grow. A cache entry is dated by the clock as it was before the version
was read, so whatever the account had come to before that date is no newer than the entry. A token
carries a version that was read before the facts, and a change bumps after it has written.

## Main definitions

* `Auth.Seen`: a state that a run has gone through.
* `Auth.Dated`: what the cache and the phases of the requests say about the states so far.

## Main results

* `Auth.dated_of_scripted`: the invariant, all along a run.
* `Auth.stale_tokens_refused`: tokens that a completed change has overtaken.
-/

namespace Auth

open Concurrent Versions

variable {ι : Type} [DecidableEq ι]

abbrev VersionMoment (ι : Type) := Moment ι VersionStore (Outcome Unit VersionReply)

abbrev VersionHistory (ι : Type) := History ι VersionStore (Outcome Unit VersionReply)

/-- The stored version. -/
def VersionStore.version (s : VersionStore) : ℕ := s.auth.user.authVersion

/-- Every entry of the caches is dated by a time that has passed. -/
def VersionStore.CachedBefore (s : VersionStore) : Prop :=
  ∀ process entry, s.cache process = some entry → entry.cachedAtMs ≤ s.millis

/-- The phase that request `i` is in. -/
def phaseOf (i : ι) (past : VersionHistory ι) : VersionPhase :=
  (past.own i).phase versionStates .begun

/-- A state that the run has gone through. -/
def Seen (start : VersionStore) (past : VersionHistory ι) (s : VersionStore) : Prop :=
  s = start ∨ ∃ m ∈ past, s = m.after

/-! ## What a moment learned -/

/-- The clock that the call read. -/
def clockRead : (c : VersionCall) → Outcome Unit VersionReply c → Option ℕ
  | .nowMillis, .ok now => some now
  | _, _ => none

/-- The version that the call found in the cache. -/
def cacheServed : (c : VersionCall) → Outcome Unit VersionReply c → Option ℕ
  | .lookup .., .ok found => found
  | _, _ => none

/-- The version that the call read out of the row. -/
def versionRead : (c : VersionCall) → Outcome Unit VersionReply c → Option ℕ
  | .family (.statement .authVersion), .ok version => some version
  | _, _ => none

/-- The version of the account row that the call read. -/
def rowRead : (c : VersionCall) → Outcome Unit VersionReply c → Option ℕ
  | .family (.statement .findUser), .ok row => some row.authVersion
  | _, _ => none

/-- The version that is known after a call. -/
def knownAfter (φ : VersionPhase) (c : VersionCall) (answer : Outcome Unit VersionReply c) :
    KnownVersion :=
  match clockRead c answer, cacheServed c answer, versionRead c answer with
  | some _, _, _ => .nothing
  | none, some version, _ => .cached version
  | none, none, some version => .stored version
  | none, none, none => φ.known

/-- The phase after a call, from what the call learned. -/
theorem after_eq (φ : VersionPhase) (c : VersionCall) (answer : Outcome Unit VersionReply c) :
    φ.after c answer = ⟨(clockRead c answer).or φ.now, knownAfter φ c answer,
      ((rowRead c answer).map φ.user.getD).or φ.user, φ.progressAfter c answer⟩ := by
  cases c with
  | nowMillis => cases answer <;> rfl
  | lookup process now =>
    rcases answer with e | found
    · rfl
    · cases found <;> rfl
  | family c =>
    cases c with
    | statement c =>
      cases c with
      | authVersion | findUser => cases answer <;> rfl
      | _ => rfl
    | _ => rfl
  | _ => rfl

/-! ## What a call does -/

section Calls

variable {chance : VersionChance} {c : VersionCall} {s : VersionStore}

theorem millis_performVersion : s.millis ≤ (performVersion chance c s).2.millis := by
  unfold performVersion
  dsimp only
  split
  · exact Nat.le_add_right _ _
  · cases c with
    | createGrant role =>
      unfold answerVersion
      dsimp only
      split <;> exact Nat.le_add_right _ _
    | updateGrant role newRole =>
      unfold answerVersion
      dsimp only
      split <;> exact Nat.le_add_right _ _
    | _ => exact Nat.le_add_right _ _

theorem version_answerFamily (chance : AuthChance) (c : FamilyCall) (s : AuthStore) :
    (answerFamily chance c s).2.user.authVersion =
      if c = .statement .bumpAuthVersion then s.user.authVersion + 1 else s.user.authVersion := by
  cases c with
  | statement c =>
    simp only [answerFamily, FamilyCall.statement.injEq]
    exact authVersion_perform
  | _ => rfl

theorem version_performVersion : (performVersion chance c s).2.version =
    if bumpsVersion c (performVersion chance c s).1 then s.version + 1 else s.version := by
  unfold performVersion
  dsimp only
  split
  · have hfailed : ∀ e, bumpsVersion c (.error e) = false := fun e => by
      cases c with
      | family c =>
        cases c with
        | statement c => cases c <;> rfl
        | _ => rfl
      | _ => rfl
    rw [hfailed]
    rfl
  · cases c with
    | family c =>
      refine (version_answerFamily chance.auth c s.auth).trans ?_
      cases c with
      | statement c => cases c <;> rfl
      | _ => rfl
    | createGrant role =>
      unfold answerVersion
      dsimp only
      split <;> rfl
    | updateGrant role newRole =>
      unfold answerVersion
      dsimp only
      split <;> rfl
    | _ => rfl

/-- Where an entry of the cache comes from. -/
theorem cache_performVersion {process : ℕ} {entry : AuthVersionCacheEntry}
    (h : (performVersion chance c s).2.cache process = some entry) :
    s.cache process = some entry ∨ c = .fill process entry.version entry.cachedAtMs := by
  unfold performVersion at h
  dsimp only at h
  split at h
  · exact .inl h
  · cases c with
    | fill process' version now =>
      by_cases hprocess : process = process'
      · subst hprocess
        simp only [answerVersion, Function.update_self, Option.some.injEq] at h
        subst h
        exact .inr rfl
      · simp only [answerVersion, Function.update_of_ne hprocess] at h
        exact .inl h
    | invalidate process' =>
      by_cases hprocess : process = process'
      · subst hprocess
        simp [answerVersion] at h
      · simp only [answerVersion, Function.update_of_ne hprocess] at h
        exact .inl h
    | evict process' =>
      by_cases hprocess : process = process'
      · subst hprocess
        simp [answerVersion] at h
      · simp only [answerVersion, Function.update_of_ne hprocess] at h
        exact .inl h
    | createGrant role =>
      unfold answerVersion at h
      dsimp only at h
      split at h <;> exact .inl h
    | updateGrant role newRole =>
      unfold answerVersion at h
      dsimp only at h
      split at h <;> exact .inl h
    | _ => exact .inl h

theorem clockRead_performVersion {now : ℕ}
    (h : clockRead c (performVersion chance c s).1 = some now) :
    c = .nowMillis ∧ now = (performVersion chance c s).2.millis := by
  cases c with
  | nowMillis =>
    refine ⟨rfl, ?_⟩
    unfold performVersion at h ⊢
    rw [if_neg (by simp [VersionCall.mayFail])] at h ⊢
    exact (Option.some.inj h).symm
  | _ => cases h

/-- What the cache serves comes from an entry that is fresh. -/
theorem cacheServed_performVersion {version : ℕ}
    (h : cacheServed c (performVersion chance c s).1 = some version) :
    ∃ process now entry, c = .lookup process now ∧ s.cache process = some entry ∧
      entry.isFresh now = true ∧ entry.version = version := by
  cases c with
  | lookup process now =>
    unfold performVersion at h
    rw [if_neg (by simp [VersionCall.mayFail])] at h
    simp only [cacheServed, answerVersion, Option.map_eq_some_iff, Option.filter_eq_some_iff] at h
    obtain ⟨entry, ⟨hentry, hfresh⟩, hversion⟩ := h
    exact ⟨process, now, entry, rfl, hentry, hfresh, hversion⟩
  | _ => cases h

theorem versionRead_performVersion {version : ℕ}
    (h : versionRead c (performVersion chance c s).1 = some version) : version = s.version := by
  unfold performVersion at h
  dsimp only at h
  split at h
  · cases c with
    | family c =>
      cases c with
      | statement c => cases c <;> cases h
      | _ => cases h
    | _ => cases h
  · cases c with
    | family c =>
      cases c with
      | statement c => cases c <;> first | exact (Option.some.inj h).symm | cases h
      | _ => cases h
    | _ => cases h

theorem rowRead_performVersion {version : ℕ}
    (h : rowRead c (performVersion chance c s).1 = some version) : version = s.version := by
  unfold performVersion at h
  dsimp only at h
  split at h
  · cases c with
    | family c =>
      cases c with
      | statement c => cases c <;> cases h
      | _ => cases h
    | _ => cases h
  · cases c with
    | family c =>
      cases c with
      | statement c => cases c <;> first | exact (Option.some.inj h).symm | cases h
      | _ => cases h
    | _ => cases h

end Calls

/-! ## The invariant -/

/-- What a phase says about the states so far. -/
structure PhaseDated (start : VersionStore) (past : VersionHistory ι) (i : ι) (φ : VersionPhase) :
    Prop where
  clock : ∀ now, φ.now = some now → now ≤ (past.store start).millis ∧
    ∃ m ∈ past, m.proc = i ∧ m.call = .nowMillis ∧ m.after.millis = now
  stored : ∀ now version, φ.now = some now → φ.known = .stored version →
    ∀ s, Seen start past s → s.millis < now → s.version ≤ version
  known : ∀ now version, φ.now = some now → φ.known.version? = some version →
    ∀ s, Seen start past s → s.millis + authVersionCacheTtlMs ≤ now → s.version ≤ version
  user : ∀ version, φ.user = some version → version ≤ (past.store start).version

/-- What the cache and the phases of the requests say about the states so far. -/
structure Dated (start : VersionStore) (past : VersionHistory ι) : Prop where
  millis : ∀ s, Seen start past s → s.millis ≤ (past.store start).millis
  version : ∀ s, Seen start past s → s.version ≤ (past.store start).version
  cachedBefore : (past.store start).CachedBefore
  cached : ∀ process entry, (past.store start).cache process = some entry →
    ∀ s, Seen start past s → s.millis < entry.cachedAtMs → s.version ≤ entry.version
  phase : ∀ i, PhaseDated start past i (phaseOf i past)

variable {start : VersionStore} {past : VersionHistory ι} {m : VersionMoment ι} {i : ι}

/-- A moment of a run of the requests. -/
abbrev VersionScripted (start : VersionStore) : VersionHistory ι → VersionMoment ι → Prop :=
  Scripted performVersion start (versionStates.issues fun _ => .begun)

omit [DecidableEq ι] in
theorem seen_cons_iff {s : VersionStore} :
    Seen start (m :: past) s ↔ Seen start past s ∨ s = m.after := by
  simp only [Seen, List.mem_cons, exists_eq_or_imp]
  exact ⟨fun h => h.elim (fun h => .inl (.inl h)) fun h => h.elim .inr fun h => .inl (.inr h),
    fun h => h.elim (fun h => h.imp_right .inr) fun h => .inr (.inl h)⟩

omit [DecidableEq ι] in
theorem seen_store (start : VersionStore) (past : VersionHistory ι) :
    Seen start past (past.store start) := by
  cases past with
  | nil => exact .inl rfl
  | cons m past => exact .inr ⟨m, List.mem_cons_self, rfl⟩

theorem phaseOf_cons_of_ne (h : m.proc ≠ i) : phaseOf i (m :: past) = phaseOf i past := by
  rw [phaseOf, History.own_cons_of_ne h, phaseOf]

theorem phaseOf_cons_self (past : VersionHistory ι) (m : VersionMoment ι) :
    phaseOf m.proc (m :: past) = (phaseOf m.proc past).after m.call m.answer := by
  rw [phaseOf, History.own_cons_self rfl]
  rfl

theorem permits_of_scripted (hm : VersionScripted start past m) :
    (phaseOf m.proc past).permits m.call :=
  hm.issues

theorem step_moment (hm : VersionScripted start past m) : ∃ chance,
    m.answer = (performVersion chance m.call (past.store start)).1 ∧
      m.after = (performVersion chance m.call (past.store start)).2 := by
  obtain ⟨chance, hanswer, hafter⟩ := hm.happened
  rw [hm.before] at hanswer hafter
  exact ⟨chance, hanswer, hafter⟩

theorem millis_le_after (hm : VersionScripted start past m) :
    (past.store start).millis ≤ m.after.millis := by
  obtain ⟨chance, -, hafter⟩ := step_moment hm
  rw [hafter]
  exact millis_performVersion

theorem version_after (hm : VersionScripted start past m) : m.after.version =
    if bumpsVersion m.call m.answer then (past.store start).version + 1
    else (past.store start).version := by
  obtain ⟨chance, hanswer, hafter⟩ := step_moment hm
  rw [hafter, hanswer]
  exact version_performVersion

theorem version_le_after (hm : VersionScripted start past m) :
    (past.store start).version ≤ m.after.version := by
  rw [version_after hm]
  split
  · exact Nat.le_succ _
  · exact Nat.le_refl _

/-- The phase of a request that makes no call stays dated. -/
theorem PhaseDated.other {φ : VersionPhase} (hφ : PhaseDated start past i φ)
    (hm : VersionScripted start past m) : PhaseDated start (m :: past) i φ where
  clock now hnow := by
    obtain ⟨hle, m', hm', h⟩ := hφ.clock now hnow
    exact ⟨hle.trans (millis_le_after hm), m', List.mem_cons_of_mem _ hm', h⟩
  stored now version hnow hknown s hs hlt := by
    rcases seen_cons_iff.mp hs with hs | rfl
    · exact hφ.stored now version hnow hknown s hs hlt
    · have := (hφ.clock now hnow).1
      have := millis_le_after hm
      omega
  known now version hnow hknown s hs hle := by
    rcases seen_cons_iff.mp hs with hs | rfl
    · exact hφ.known now version hnow hknown s hs hle
    · have := (hφ.clock now hnow).1
      have := millis_le_after hm
      simp only [authVersionCacheTtlMs] at hle
      omega
  user version huser := (hφ.user version huser).trans (version_le_after hm)

/-- A call keeps the phase of its own request dated. -/
theorem Dated.own (h : Dated start past) (hm : VersionScripted start past m) :
    PhaseDated start (m :: past) m.proc ((phaseOf m.proc past).after m.call m.answer) := by
  have hφ : PhaseDated start (m :: past) m.proc (phaseOf m.proc past) := (h.phase m.proc).other hm
  have hpermits := permits_of_scripted hm
  obtain ⟨chance, hanswer, hafter⟩ := step_moment hm
  generalize phaseOf m.proc past = φ at *
  have hclock : ∀ now, clockRead m.call m.answer = some now →
      m.call = .nowMillis ∧ now = m.after.millis := fun now hread => by
    rw [hanswer] at hread
    rw [hafter]
    exact clockRead_performVersion hread
  have hrow : ∀ version, versionRead m.call m.answer = some version ∨
      rowRead m.call m.answer = some version → version = (past.store start).version := by
    rw [hanswer]
    exact fun version hread => hread.elim versionRead_performVersion rowRead_performVersion
  -- the state after the call is no earlier than the clock that was read before it
  have hbefore : ∀ now s, φ.now = some now → Seen start (m :: past) s → s.millis < now →
      Seen start past s := by
    intro now s hnow hs hlt
    rcases seen_cons_iff.mp hs with hs | rfl
    · exact hs
    · exact absurd ((hφ.clock now hnow).1) (Nat.not_le_of_lt hlt)
  rw [after_eq]
  refine ⟨fun now hnow => ?_, fun now version hnow hknown s hs hlt => ?_,
    fun now version hnow hknown s hs hle => ?_, fun version huser => ?_⟩
  · cases hread : clockRead m.call m.answer with
    | none =>
      rw [hread, Option.none_or] at hnow
      exact hφ.clock now hnow
    | some now' =>
      rw [hread, Option.some_or] at hnow
      cases hnow
      obtain ⟨hcall, rfl⟩ := hclock now hread
      exact ⟨Nat.le_refl _, m, List.mem_cons_self, rfl, hcall, rfl⟩
  · unfold knownAfter at hknown
    split at hknown
    · cases hknown
    · cases hknown
    · rename_i hnone _ hread
      cases hknown
      rw [hnone, Option.none_or] at hnow
      rw [hrow version (.inl hread)]
      exact h.version s (hbefore now s hnow hs hlt)
    · rename_i hnone _ _
      rw [hnone, Option.none_or] at hnow
      exact hφ.stored now version hnow hknown s hs hlt
  · have hlt : s.millis < now := by
      simp only [authVersionCacheTtlMs] at hle
      omega
    unfold knownAfter at hknown
    split at hknown
    · cases hknown
    · rename_i hnone hserved
      cases hknown
      rw [hnone, Option.none_or] at hnow
      rw [hanswer] at hserved
      obtain ⟨process, now', entry, hcall, hentry, hfresh, rfl⟩ := cacheServed_performVersion hserved
      rw [hcall] at hpermits
      cases hnow.symm.trans hpermits
      refine h.cached process entry hentry s (hbefore now s hnow hs hlt) ?_
      have := of_decide_eq_true hfresh
      omega
    · rename_i hnone _ hread
      cases hknown
      rw [hnone, Option.none_or] at hnow
      rw [hrow version (.inl hread)]
      exact h.version s (hbefore now s hnow hs hlt)
    · rename_i hnone _ _
      rw [hnone, Option.none_or] at hnow
      exact hφ.known now version hnow hknown s hs hle
  · cases hread : rowRead m.call m.answer with
    | none =>
      rw [hread] at huser
      exact hφ.user version huser
    | some version' =>
      rw [hread] at huser
      cases huser
      cases hold : φ.user with
      | none =>
        rw [Option.getD_none, hrow version' (.inr hread)]
        exact version_le_after hm
      | some old => exact hφ.user old hold

/-- A call keeps everything dated. -/
theorem Dated.step (h : Dated start past) (hm : VersionScripted start past m) :
    Dated start (m :: past) where
  millis s hs := by
    rcases seen_cons_iff.mp hs with hs | rfl
    · exact (h.millis s hs).trans (millis_le_after hm)
    · exact Nat.le_refl _
  version s hs := by
    rcases seen_cons_iff.mp hs with hs | rfl
    · exact (h.version s hs).trans (version_le_after hm)
    · exact Nat.le_refl _
  cachedBefore process entry hentry := by
    obtain ⟨chance, -, hafter⟩ := step_moment hm
    rw [History.store_cons, hafter] at hentry
    refine Nat.le_trans ?_ (millis_le_after hm)
    rcases cache_performVersion hentry with hentry | hcall
    · exact h.cachedBefore process entry hentry
    · have hpermits := permits_of_scripted hm
      rw [hcall] at hpermits
      exact ((h.phase m.proc).clock _ hpermits.1).1
  cached process entry hentry s hs hlt := by
    obtain ⟨chance, -, hafter⟩ := step_moment hm
    rw [History.store_cons, hafter] at hentry
    rcases cache_performVersion hentry with hentry | hcall
    · rcases seen_cons_iff.mp hs with hs | rfl
      · exact h.cached process entry hentry s hs hlt
      · have := h.cachedBefore process entry hentry
        have := millis_le_after hm
        omega
    · have hpermits := permits_of_scripted hm
      rw [hcall] at hpermits
      rcases seen_cons_iff.mp hs with hs | rfl
      · exact (h.phase m.proc).stored _ _ hpermits.1 hpermits.2 s hs hlt
      · have := ((h.phase m.proc).clock _ hpermits.1).1
        have := millis_le_after hm
        omega
  phase i := by
    by_cases hi : m.proc = i
    · subst hi
      rw [phaseOf_cons_self]
      exact h.own hm
    · rw [phaseOf_cons_of_ne hi]
      exact (h.phase i).other hm

theorem dated_nil (hstart : start.CachedBefore) : Dated start ([] : VersionHistory ι) where
  millis := by
    rintro s (rfl | ⟨m, hm, -⟩)
    · exact Nat.le_refl _
    · cases hm
  version := by
    rintro s (rfl | ⟨m, hm, -⟩)
    · exact Nat.le_refl _
    · cases hm
  cachedBefore := hstart
  cached process entry hentry := by
    rintro s (rfl | ⟨m, hm, -⟩) hlt
    · exact absurd (hstart process entry hentry) (Nat.not_le_of_lt hlt)
    · cases hm
  phase i := ⟨nofun, nofun, nofun, nofun⟩

/-- The invariant holds all along a run. -/
theorem dated_of_scripted (hstart : start.CachedBefore) {past : VersionHistory ι}
    (h : Along (VersionScripted start) past) : Dated start past := by
  induction past with
  | nil => exact dated_nil hstart
  | cons m past ih => exact (ih h.2).step h.1

/-! ## What has been read, handed out and bumped -/

/-- Request `i` has read the account row or the roles. -/
def ReadFacts (i : ι) (past : VersionHistory ι) : Prop :=
  ∃ m ∈ past, m.proc = i ∧ readsFacts m.call m.answer = true

/-- Request `i` has handed the tokens out. -/
def HandedOut (i : ι) (access : AccessToken) (refresh : RefreshToken) (past : VersionHistory ι) :
    Prop :=
  ∃ m ∈ past, m.proc = i ∧ m.call = .family (.statement (.respond (.tokens access refresh)))

variable {later earlier : VersionHistory ι} {version : ℕ}

omit [DecidableEq ι] in
theorem Seen.append {s : VersionStore} (h : Seen start earlier s) (later : VersionHistory ι) :
    Seen start (later ++ earlier) s :=
  h.imp_right fun ⟨m, hm, hs⟩ => ⟨m, List.mem_append_right _ hm, hs⟩

theorem user_after (φ : VersionPhase) (c : VersionCall) (answer : Outcome Unit VersionReply c) :
    (φ.after c answer).user = ((rowRead c answer).map φ.user.getD).or φ.user := by
  rw [after_eq]

theorem progress_after (φ : VersionPhase) (c : VersionCall) (answer : Outcome Unit VersionReply c) :
    (φ.after c answer).progress = φ.progressAfter c answer := by
  rw [after_eq]

/-- The version of the first row that was read stays. -/
theorem user_cons (h : (phaseOf i past).user = some version) (m : VersionMoment ι) :
    (phaseOf i (m :: past)).user = some version := by
  by_cases hi : m.proc = i
  · subst hi
    rw [phaseOf_cons_self, user_after, h]
    cases rowRead m.call m.answer <;> rfl
  · rwa [phaseOf_cons_of_ne hi]

theorem user_append (h : (phaseOf i earlier).user = some version) (later : VersionHistory ι) :
    (phaseOf i (later ++ earlier)).user = some version := by
  induction later with
  | nil => exact h
  | cons m later ih => exact user_cons ih m

/-- Facts are read once the row is. -/
theorem user_of_readFacts (h : Along (VersionScripted start) past) (hread : ReadFacts i past) :
    ∃ version, (phaseOf i past).user = some version := by
  induction past with
  | nil =>
    obtain ⟨m, hm, -⟩ := hread
    cases hm
  | cons m past ih =>
    obtain ⟨m', hm', hproc, hreads⟩ := hread
    rcases List.mem_cons.mp hm' with rfl | hm'
    · have hpermits := permits_of_scripted h.1
      subst hproc
      rw [phaseOf_cons_self, user_after]
      obtain ⟨j, before, c, answer, after⟩ := m'
      cases c with
      | family c =>
        cases c with
        | statement c =>
          cases c with
          | findUser =>
            cases answer with
            | ok row => exact ⟨_, rfl⟩
            | error e => cases hreads
          | listRoles => exact Option.ne_none_iff_exists'.mp hpermits
          | _ => cases hreads
        | _ => cases hreads
      | _ => cases hreads
    · obtain ⟨version, huser⟩ := ih h.2 ⟨m', hm', hproc, hreads⟩
      exact ⟨version, user_cons huser m⟩

/-- Tokens that have been handed out carry the version of the row that was read first. -/
theorem user_of_handedOut {access : AccessToken} {refresh : RefreshToken}
    (h : Along (VersionScripted start) past) (hout : HandedOut i access refresh past) :
    (phaseOf i past).user = some access.authVersion ∧
      (phaseOf i past).user = some refresh.authVersion := by
  induction past with
  | nil =>
    obtain ⟨m, hm, -⟩ := hout
    cases hm
  | cons m past ih =>
    obtain ⟨m', hm', hproc, hcall⟩ := hout
    rcases List.mem_cons.mp hm' with rfl | hm'
    · have hpermits := permits_of_scripted h.1
      rw [hcall, hproc] at hpermits
      exact ⟨user_cons hpermits.1 m', user_cons hpermits.2 m'⟩
    · obtain ⟨haccess, hrefresh⟩ := ih h.2 ⟨m', hm', hproc, hcall⟩
      exact ⟨user_cons haccess m, user_cons hrefresh m⟩

/-- A request that has not asked for the row has not read it. -/
theorem user_of_unread (h : ∀ m ∈ past, m.proc = i → m.call ≠ .family (.statement .findUser)) :
    (phaseOf i past).user = none := by
  induction past with
  | nil => rfl
  | cons m past ih =>
    have hpast := ih fun m' hm' => h m' (List.mem_cons_of_mem _ hm')
    by_cases hi : m.proc = i
    · subst hi
      have hcall := h m List.mem_cons_self rfl
      rw [phaseOf_cons_self, user_after, hpast, Option.or_none, Option.map_eq_none_iff]
      obtain ⟨j, before, c, answer, after⟩ := m
      cases c with
      | family c =>
        cases c with
        | statement c => cases c <;> first | rfl | exact absurd rfl hcall
        | _ => rfl
      | _ => rfl
    · rwa [phaseOf_cons_of_ne hi]

/-- A row that is read later is no older. -/
theorem version_le_user (hstart : start.CachedBefore)
    (h : Along (VersionScripted start) (later ++ earlier)) (hnone : (phaseOf i earlier).user = none)
    (huser : (phaseOf i (later ++ earlier)).user = some version) :
    (earlier.store start).version ≤ version := by
  induction later with
  | nil => cases hnone.symm.trans huser
  | cons m later ih =>
    have hdated := dated_of_scripted hstart h.2
    cases hold : (phaseOf i (later ++ earlier)).user with
    | some old =>
      have hsame := (user_cons hold m).symm.trans huser
      cases hsame
      exact ih h.2 hold
    | none =>
      by_cases hi : m.proc = i
      · subst hi
        rw [List.cons_append, phaseOf_cons_self, user_after, hold, Option.or_none] at huser
        obtain ⟨read, hread, hversion⟩ := Option.map_eq_some_iff.mp huser
        rw [Option.getD_none] at hversion
        subst hversion
        obtain ⟨chance, hanswer, -⟩ := step_moment h.1
        rw [hanswer] at hread
        rw [rowRead_performVersion hread]
        exact hdated.version _ ((seen_store start earlier).append later)
      · rw [List.cons_append, phaseOf_cons_of_ne hi] at huser
        cases hold.symm.trans huser

/-- A request with nothing left to bump has bumped after each of its writes. -/
theorem bump_of_progress {write : VersionMoment ι} (hi : write.proc = i)
    (hwrite : writesFacts write.call write.answer = true)
    (h : (phaseOf i (later ++ write :: earlier)).progress ≠ .written) :
    ∃ bump ∈ later, bump.proc = i ∧ bumpsVersion bump.call bump.answer = true := by
  induction later with
  | nil =>
    subst hi
    rw [List.nil_append, phaseOf_cons_self, progress_after, VersionPhase.progressAfter,
      if_pos hwrite] at h
    exact absurd rfl h
  | cons m later ih =>
    by_cases hm : m.proc = i
    · cases hbump : bumpsVersion m.call m.answer with
      | true => exact ⟨m, List.mem_cons_self, hm, hbump⟩
      | false =>
        subst hm
        rw [List.cons_append, phaseOf_cons_self, progress_after, VersionPhase.progressAfter] at h
        split at h
        · exact absurd rfl h
        · rw [hbump] at h
          obtain ⟨bump, hmem, hproc⟩ := ih h
          exact ⟨bump, List.mem_cons_of_mem _ hmem, hproc⟩
    · rw [List.cons_append, phaseOf_cons_of_ne hm] at h
      obtain ⟨bump, hmem, hproc⟩ := ih h
      exact ⟨bump, List.mem_cons_of_mem _ hmem, hproc⟩

/-- Tokens whose request had read the facts before a bump are behind it. -/
theorem behind_of_bump (hstart : start.CachedBefore) {bump : VersionMoment ι}
    (h : Along (VersionScripted start) (later ++ bump :: earlier))
    (hbump : bumpsVersion bump.call bump.answer = true) (hread : ReadFacts i earlier)
    {access : AccessToken} {refresh : RefreshToken}
    (hout : HandedOut i access refresh (later ++ bump :: earlier)) :
    access.authVersion < bump.after.version ∧ refresh.authVersion < bump.after.version := by
  have hbumped : Along (VersionScripted start) (bump :: earlier) := h.earlier
  obtain ⟨version, huser⟩ := user_of_readFacts hbumped.2 hread
  have hversion : version < bump.after.version := by
    have hle := ((dated_of_scripted hstart hbumped.2).phase i).user version huser
    rw [version_after hbumped.1, if_pos hbump]
    exact Nat.lt_succ_of_le hle
  have hlast := user_append (user_cons huser bump) later
  obtain ⟨haccess, hrefresh⟩ := user_of_handedOut h hout
  rw [← Option.some.inj (hlast.symm.trans haccess), ← Option.some.inj (hlast.symm.trans hrefresh)]
  exact ⟨hversion, hversion⟩

/-! ## Tokens that a change has overtaken -/

/-- For any requests in any processes, along any schedule:

* the version that the cache gives for a time is no older than what was stored up to its lifetime
  before that time;
* a change that is over without a failure has bumped the version after each of its writes;
* tokens whose request had read the account row or the roles before a write of a change are refused
  once the change has bumped: the access token by every check that begins when the lifetime of a
  cache entry has passed since the bump, the refresh token by every refresh that reads the account
  after the bump. -/
theorem stale_tokens_refused (services : Services) (settings : Settings) {start : VersionStore}
    (hstart : start.CachedBefore) (requests : ι → ℕ × VersionRequest)
    (schedule : List (ι × VersionChance)) :
    let run := versionRun services settings start requests schedule
    (∀ i version, (requests i).2 = .currentVersion → run.running i = .done (.version version) →
      ∃ m ∈ run.history, m.proc = i ∧ m.call = .nowMillis ∧ ∀ s, Seen start run.history s →
        s.millis + authVersionCacheTtlMs ≤ m.after.millis → s.version ≤ version) ∧
    (∀ k, Bumping (requests k).2 → run.running k = .done .done →
      ∀ later write past, run.history = later ++ write :: past → write.proc = k →
        writesFacts write.call write.answer = true →
          ∃ bump ∈ later, bump.proc = k ∧ bumpsVersion bump.call bump.answer = true) ∧
    ∀ later bump between write past, run.history = later ++ bump :: (between ++ write :: past) →
      write.proc = bump.proc → writesFacts write.call write.answer = true →
      bumpsVersion bump.call bump.answer = true →
      ∀ i access refresh, ReadFacts i past → HandedOut i access refresh run.history →
        (∀ j, (requests j).2 = .check access →
          (∀ m ∈ run.history, m.proc = j →
            bump.after.millis + authVersionCacheTtlMs ≤ m.after.millis) →
          ∀ presented, run.running j ≠ .done (.presented (some presented))) ∧
        ∀ j, (requests j).2 = .family (.refresh refresh) →
          (∀ m ∈ bump :: (between ++ write :: past), m.proc = j →
            m.call ≠ .family (.statement .findUser)) →
          ∀ access' refresh', run.running j ≠ .done (.response (.tokens access' refresh')) := by
  intro run
  obtain ⟨hscripted, hjustified⟩ : Along (VersionScripted start) run.history ∧
      ∀ i verdict, run.running i = .done verdict →
        Justified (requests i).2 verdict (phaseOf i run.history) :=
    Typestate.exec_follows (fun i =>
      follows_request services settings (requests i).1 (requests i).2) schedule
  have hdated := dated_of_scripted hstart hscripted
  refine ⟨fun i version hi hdone => ?_, fun k hk hdone later write past hhistory hproc hwrite => ?_,
    fun later bump between write past hhistory _ _ hbump i access refresh hread hout =>
      ⟨fun j hj hlate presented hdone => ?_, fun j hj hunread access' refresh' hdone => ?_⟩⟩
  · obtain ⟨hnow, hknown⟩ := (hjustified i _ hdone).served version hi rfl
    obtain ⟨now, hnow⟩ := Option.ne_none_iff_exists'.mp hnow
    obtain ⟨-, m, hm, hproc, hcall, rfl⟩ := (hdated.phase i).clock now hnow
    exact ⟨m, hm, hproc, hcall, (hdated.phase i).known _ version hnow hknown⟩
  · have hprogress := (hjustified k _ hdone).bumped hk rfl
    rw [hhistory] at hprogress
    exact bump_of_progress hproc hwrite hprogress
  · have hread' : ReadFacts i (between ++ write :: past) :=
      hread.imp fun m hm => ⟨List.mem_append_right _ (List.mem_cons_of_mem _ hm.1), hm.2⟩
    rw [hhistory] at hscripted hout
    have hbehind := (behind_of_bump hstart hscripted hbump hread' hout).1
    obtain ⟨version, ⟨hnow, hknown⟩, hversion⟩ :=
      (hjustified j _ hdone).accepted access presented hj rfl
    obtain ⟨now, hnow⟩ := Option.ne_none_iff_exists'.mp hnow
    obtain ⟨-, m, hm, hproc, -, rfl⟩ := (hdated.phase j).clock now hnow
    have hseen : Seen start run.history bump.after := by
      rw [hhistory]
      exact .inr ⟨bump, List.mem_append_right _ List.mem_cons_self, rfl⟩
    have := (hdated.phase j).known _ version hnow hknown bump.after hseen (hlate m hm hproc)
    omega
  · have hread' : ReadFacts i (between ++ write :: past) :=
      hread.imp fun m hm => ⟨List.mem_append_right _ (List.mem_cons_of_mem _ hm.1), hm.2⟩
    obtain ⟨version, huser, hversion⟩ :=
      (hjustified j _ hdone).refreshed refresh access' refresh' hj rfl
    rw [hhistory] at hscripted hout huser
    have hbehind := (behind_of_bump hstart hscripted hbump hread' hout).2
    have hcurrent := version_le_user hstart hscripted (user_of_unread hunread) huser
    rw [History.store_cons] at hcurrent
    omega

/-- A device that is signed in, and a process that has just cached the account's version. -/
def cachedDevice : VersionStore where
  auth :=
    { user := ⟨false, none, true, "email_token", 0, "", none⟩
      roles := ["user"]
      passwordHash := some "7$old-horse-battery"
      sessions := [⟨1, "password", 9000⟩]
      tokens := [⟨2, ⟨1, 0, "password", 3, 9000⟩, 1, 0, false, 9000⟩]
      apiKeys := .empty
      held := [.refresh ⟨1, 0, "password", 3, 9000⟩]
      clock := 0
      nextRandom := 10 }
  cache process := if process = 0 then some ⟨0, 0⟩ else none
  millis := 0

theorem cachedBefore_cachedDevice : cachedDevice.CachedBefore := by
  intro process entry hentry
  by_cases hprocess : process = 0
  · simp only [cachedDevice, hprocess, if_true, Option.some.injEq] at hentry
    subst hentry
    exact Nat.le_refl _
  · simp [cachedDevice, hprocess] at hentry

/-- A refresh, a role that is granted in another process, and what comes of the refresh's tokens. -/
def grantedRole : Fin 4 → ℕ × VersionRequest
  | 0 => (0, .family (.refresh ⟨1, 0, "password", 3, 9000⟩))
  | 1 => (1, .change (.assignRole "editor"))
  | 2 => (0, .check ⟨1, 0, ["user"], "password", 1800⟩)
  | 3 => (0, .family (.refresh ⟨1, 0, "password", 10, 604800⟩))

/-- The grant falls between the refresh's reads and its mint; the check comes when the lifetime of a
cache entry has passed. -/
def grantedDuringRefresh : List (Fin 4 × VersionChance) :=
  List.replicate 6 (0, ⟨1, false, true, 0, none⟩) ++
    List.replicate 5 (1, ⟨1, false, true, 0, none⟩) ++
    List.replicate 9 (0, ⟨1, false, true, 0, none⟩) ++
    List.replicate 6 (2, ⟨6000, false, true, 0, none⟩) ++
    List.replicate 8 (3, ⟨1, false, true, 0, none⟩)

/-- The run in which the role is granted during the refresh. -/
def grantedRun : Pool (Fin 4) VersionStore (Outcome Unit VersionReply) Verdict :=
  versionRun ⟨fun password _ => password, fun _ _ => .misses, id, fun _ => none⟩
    ⟨false, 8, 1800, some 7⟩ cachedDevice grantedRole grantedDuringRefresh

theorem stale_tokens_refused_granted :
    grantedRun.running 1 = .done .done ∧ grantedRun.running 2 = .done (.presented none) ∧
      (∀ presented, grantedRun.running 2 ≠ .done (.presented (some presented))) ∧
      ∀ access refresh, grantedRun.running 3 ≠ .done (.response (.tokens access refresh)) := by
  have hread : ReadFacts 0 (grantedRun.history.drop 24) := by
    unfold ReadFacts
    decide
  have hout : HandedOut 0 ⟨1, 0, ["user"], "password", 1800⟩ ⟨1, 0, "password", 10, 604800⟩
      grantedRun.history := by
    unfold HandedOut
    decide
  have hsplit : grantedRun.history = grantedRun.history.take 22 ++
      grantedRun.history.get ⟨22, by decide⟩ :: ([] ++
        grantedRun.history.get ⟨23, by decide⟩ :: grantedRun.history.drop 24) := rfl
  have hlate : ∀ m ∈ grantedRun.history, m.proc = 2 →
      (grantedRun.history.get ⟨22, by decide⟩).after.millis + authVersionCacheTtlMs ≤
        m.after.millis := by decide
  have hunread : ∀ m ∈ grantedRun.history.get ⟨22, by decide⟩ :: ([] ++
      grantedRun.history.get ⟨23, by decide⟩ :: grantedRun.history.drop 24), m.proc = 3 →
        m.call ≠ .family (.statement .findUser) := by decide
  have hrefused := (stale_tokens_refused ⟨fun password _ => password, fun _ _ => .misses, id,
    fun _ => none⟩ ⟨false, 8, 1800, some 7⟩ cachedBefore_cachedDevice grantedRole
    grantedDuringRefresh).2.2 _ _ _ _ _ hsplit rfl rfl rfl 0 _ _ hread hout
  exact ⟨rfl, rfl, hrefused.1 2 rfl hlate, hrefused.2 3 rfl hunread⟩

end Auth
