import Impresspress.Auth.Chain

/-!
# What a change of the password asks of other requests

`update_password` writes the new hash whatever hash is stored by then, so a request that verified
the old password before a change can store its own hash after it. Runs in which none does keep
what the change relies on; the rules for the calls that do so are stated once.

## Main definitions

* `Auth.Compared`: no other request stores a password on the word of a replaced one.
* `Auth.lockout`: what the change and the other requests keep together.
* `Auth.Quiet`, `Auth.Reading`, `Auth.Tame`: kinds of calls.

## Main results

* `Auth.safe_quiet`: programs of quiet calls.
* `Auth.safe_answering`: a program that computes an answer, and the call that hands it out.
-/

namespace Auth

open Concurrent Discipline Program

variable {ι : Type} [DecidableEq ι]

/-- A request other than the change that stores a password once the change has stored its own has
verified its current password after that. -/
def Compared (start : AuthStore) (past : AuthHistory ι) (m : AuthMoment ι) : Prop :=
  m.proc ≠ none → storedPassword m.call m.answer = true → Wrote past →
    (chain start past).checked m.proc = false

instance (start : AuthStore) (past : AuthHistory ι) (m : AuthMoment ι) :
    Decidable (Compared start past m) :=
  inferInstanceAs (Decidable (m.proc ≠ none → storedPassword m.call m.answer = true →
    Wrote past → (chain start past).checked m.proc = false))

/-- What the change and the other requests keep together. -/
def lockout (start : AuthStore) : Discipline (Option ι) AuthStore AuthAnswer where
  inv := Locked start
  guarantee _ _ := True
  admits := Compared start

/-- Calls that check no proof, hand nothing out and end nothing. -/
def Quiet : AuthCall → Prop
  | .present _ | .findCredential | .updateCredential _ | .insertCredential _ => False
  | .bumpAuthVersion | .revokeKeys | .insertKey .. | .respond _ => False
  | _ => True

/-- Quiet calls, and those that check a proof. -/
def Reading : AuthCall → Prop
  | .updateCredential _ | .insertCredential _ => False
  | .bumpAuthVersion | .revokeKeys | .insertKey .. | .respond _ => False
  | _ => True

/-- Calls that neither create a key nor hand anything out. -/
def Tame : AuthCall → Prop
  | .insertKey .. | .respond _ => False
  | _ => True

variable {start : AuthStore} {past : AuthHistory ι} {m : AuthMoment ι} {i : Option ι}

section Calls

theorem Quiet.reading {c : AuthCall} (h : Quiet c) : Reading c := by
  cases c with
  | present | findCredential | updateCredential | insertCredential | bumpAuthVersion
  | revokeKeys | insertKey | respond => exact h.elim
  | _ => trivial

omit [DecidableEq ι] in
theorem storedPassword_of_reading {m : AuthMoment ι} (h : Reading m.call) :
    storedPassword m.call m.answer = false := by
  obtain ⟨j, s, c, answer, after⟩ := m
  cases c with
  | updateCredential | insertCredential => exact h.elim
  | _ => rfl

theorem locked_reading {c : AuthCall} (hc : Reading c) (h : Locked start past)
    (chance : AuthChance) :
    Locked start (Pool.momentOf perform i chance c (past.store start) :: past) := by
  refine h.step rfl ⟨chance, rfl, rfl⟩ (fun hstored => ?_) (fun _ hcall => ?_) (fun _ hcall => ?_)
    (fun _ _ _ hcall => ?_) (fun _ hcall => ?_)
  · rw [storedPassword_of_reading hc] at hstored
    cases hstored
  all_goals
    simp only [Pool.momentOf] at hcall
    subst hcall
    exact hc.elim

theorem locked_tame {j : ι} {c : AuthCall} (hc : Tame c) (h : Locked start past)
    (chance : AuthChance)
    (hadmits : Compared start past (Pool.momentOf perform (some j) chance c (past.store start))) :
    Locked start (Pool.momentOf perform (some j) chance c (past.store start) :: past) := by
  refine h.step rfl ⟨chance, rfl, rfl⟩ (fun hstored hproc hwrote => hadmits hproc hstored hwrote)
    nofun nofun (fun _ _ _ hcall => ?_) (fun _ hcall => ?_)
  all_goals
    simp only [Pool.momentOf] at hcall
    subst hcall
    exact hc.elim

end Calls

section Lasting

variable {K : AuthCall → Prop}

theorem lasting_wrote : (lockout start).Lasting perform start i K (Wrote (ι := ι)) :=
  fun _ m h _ _ => h.cons m

theorem lasting_bumped :
    (lockout start).Lasting perform start i K fun past : AuthHistory ι => bumped past ≠ none :=
  fun _ m h _ _ => bumped_cons_ne_none h m

theorem lasting_keysEnded : (lockout start).Lasting perform start i K (KeysEnded (ι := ι)) :=
  fun _ m h _ _ => h.cons m

theorem lasting_behind (version : ℕ) : (lockout start).Lasting perform start i K
    fun past : AuthHistory ι => Behind start past version :=
  fun _ _ h hallowed _ => h.step hallowed.before hallowed.happened

theorem lasting_keyEnds (id : ℕ) : (lockout start).Lasting perform start i K
    fun past : AuthHistory ι => KeyEnds start past id :=
  fun _ _ h hallowed _ => h.step hallowed.before hallowed.happened

theorem lasting_const (P : Prop) :
    (lockout start).Lasting perform start i K fun _ : AuthHistory ι => P :=
  fun _ _ h _ _ => h

/-- A credential that goes back to the old password keeps doing so. -/
theorem lasting_held (credential : Credential) : (lockout start).Lasting perform start i K
    fun past : AuthHistory ι => credential ∈ (chain start past).held := by
  rintro past ⟨j, s, c, answer, after⟩ h - -
  cases c with
  | respond response =>
    simp only [chain]
    split
    · exact List.mem_append_right _ h
    · exact h
  | _ => exact h

theorem checked_chain_cons (h : m.proc = i → Quiet m.call) :
    (chain start (m :: past)).checked i = (chain start past).checked i := by
  obtain ⟨j, s, c, answer, after⟩ := m
  have hne : ∀ v, ¬ Quiet c → Function.update (chain start past).checked j v i =
      (chain start past).checked i := by
    intro v hc
    have hij : i ≠ j := fun hij => hc (h hij.symm)
    simp [hij]
  cases c with
  | findCredential => exact hne _ id
  | present credential => exact hne _ id
  | _ => rfl

theorem Lasting.of_checked {A : AuthHistory ι → Prop}
    (hA : (lockout start).Lasting perform start i Quiet A) :
    (lockout start).Lasting perform start i Quiet
      fun past => (chain start past).checked i = true → A past := by
  intro past m h hallowed hK hchecked
  rw [checked_chain_cons hK] at hchecked
  exact hA past m (h hchecked) hallowed hK

end Lasting

section Rules

variable {α : Type} {post : α → AuthHistory ι → Prop}

/-- A call, from what lasts until it is made. -/
theorem safe_call {c : AuthCall} {next : AuthAnswer c → AuthProgram α} (A : AuthHistory ι → Prop)
    (hA : (lockout start).Lasting perform start i Quiet A) (h : A past)
    (hlocked : ∀ past chance, A past → Locked start past →
      Compared start past (Pool.momentOf perform i chance c (past.store start)) →
      Locked start (Pool.momentOf perform i chance c (past.store start) :: past))
    (hnext : ∀ past chance, A past → Locked start past →
      Locked start (Pool.momentOf perform i chance c (past.store start) :: past) →
      (lockout start).Safe perform start i (next (perform chance c (past.store start)).1)
        (Pool.momentOf perform i chance c (past.store start) :: past) post) :
    (lockout start).Safe perform start i (.call c next) past post :=
  Safe.call A hA.stable h fun past h hinv chance => ⟨trivial, fun hadmits =>
    have hlocked' := hlocked past chance h hinv hadmits
    ⟨hlocked', hnext past chance h hinv hlocked'⟩⟩

/-- A call that reads. -/
theorem safe_read {c : AuthCall} {next : AuthAnswer c → AuthProgram α} (A : AuthHistory ι → Prop)
    (hc : Reading c) (hA : (lockout start).Lasting perform start i Quiet A) (h : A past)
    (hnext : ∀ past chance, A past → Locked start past →
      Locked start (Pool.momentOf perform i chance c (past.store start) :: past) →
      (lockout start).Safe perform start i (next (perform chance c (past.store start)).1)
        (Pool.momentOf perform i chance c (past.store start) :: past) post) :
    (lockout start).Safe perform start i (.call c next) past post :=
  safe_call A hA h (fun _ chance _ hinv _ => locked_reading hc hinv chance) hnext

/-- What lasts is there after a call that reads. -/
theorem lasting_next {K : AuthCall → Prop} {A : AuthHistory ι → Prop} {c : AuthCall}
    (hA : (lockout start).Lasting perform start i K A) (hK : K c) (hc : Reading c)
    (hlocked : Locked start past) (chance : AuthChance) (h : A past) :
    A (Pool.momentOf perform i chance c (past.store start) :: past) := by
  refine hA past _ h ⟨rfl, ⟨chance, rfl, rfl⟩, trivial, fun _ hstored => ?_, hlocked,
    locked_reading hc hlocked chance⟩ fun _ => hK
  rw [storedPassword_of_reading hc] at hstored
  cases hstored

/-- A program of quiet calls. -/
theorem safe_quiet {p : AuthProgram α} {R : α → Prop} {A : AuthHistory ι → Prop}
    (hp : p.Yields Quiet R) (hA : (lockout start).Lasting perform start i Quiet A) (h : A past) :
    (lockout start).Safe perform start i p past fun a past => R a ∧ A past :=
  Safe.yields hp hA h fun _ _ chance hc _ hinv =>
    ⟨trivial, fun _ => locked_reading hc.reading hinv chance⟩

/-- A program that computes an answer, and the call that hands it out. -/
theorem safe_answering {p : AuthProgram Response} {A B : Response → AuthHistory ι → Prop}
    (hp : (lockout start).Safe perform start i p past A)
    (hA : ∀ r, (lockout start).Stable perform start i (A r))
    (hends : ∀ r past, A r past → Locked start past → (chain start past).checked i = true →
      ∀ credential ∈ r.credentials, Ends start past credential)
    (hB : ∀ r past chance, A r past → Locked start past →
      B r (Pool.momentOf perform i chance (.respond r) (past.store start) :: past))
    (hBstable : ∀ r, (lockout start).Stable perform start i (B r)) :
    (lockout start).Safe perform start i (answering p) past B := by
  refine Safe.bind (hp.mono fun r past hr => ?_)
  refine Safe.call (A r) (hA r) hr fun past hr hinv chance => ⟨trivial, fun _ => ⟨?_, ?_⟩⟩
  · refine Locked.step rfl ⟨chance, rfl, rfl⟩ hinv nofun nofun nofun nofun ?_
    rintro response hcall
    obtain rfl : r = response := by simpa [Pool.momentOf] using hcall
    exact hends _ past hr hinv
  · exact Safe.done (hBstable r) (hB r past chance hr hinv)

end Rules

end Auth
