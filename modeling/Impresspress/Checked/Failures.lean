import Impresspress.Checked.Arithmetic

/-!
# Failing with an error of some kind

When a computation fails with an error of some kind, read off its parts.

## Main definitions

* `Checked.FailsWith`: a computation fails with an error of the kind.

## Main results

* `Checked.failsWith_bind`, `Checked.failsWith_guard`: which part of a computation fails.
-/

namespace Checked

variable {ε ε' α β : Type} {bad : ε → Prop}

/-- The computation fails with an error that is `bad`. -/
def FailsWith (bad : ε → Prop) (result : Except ε α) : Prop := ∃ e, result = .error e ∧ bad e

@[simp]
theorem failsWith_ok {value : α} : FailsWith bad (.ok value : Except ε α) ↔ False :=
  iff_of_false (fun h => nomatch h.choose_spec.1) id

@[simp]
theorem failsWith_pure {value : α} : FailsWith bad (pure value : Except ε α) ↔ False :=
  failsWith_ok

@[simp]
theorem failsWith_error {e : ε} : FailsWith bad (.error e : Except ε α) ↔ bad e :=
  ⟨fun ⟨_, h, hbad⟩ => Except.error.inj h ▸ hbad, fun hbad => ⟨e, rfl, hbad⟩⟩

/-- A sequence fails in its first part, or in the other one after it. -/
theorem failsWith_bind {first : Except ε α} {next : α → Except ε β} :
    FailsWith bad (first >>= next) ↔
      FailsWith bad first ∨ ∃ value, first = .ok value ∧ FailsWith bad (next value) := by
  cases first with
  | error e => exact ⟨fun h => .inl (failsWith_error.mpr (failsWith_error.mp h)), fun h =>
      h.elim (fun h => failsWith_error.mpr (failsWith_error.mp h)) fun h => nomatch h.choose_spec.1⟩
  | ok value => exact ⟨fun h => .inr ⟨value, rfl, h⟩, fun h =>
      h.elim (fun h => (failsWith_ok.mp h).elim) fun ⟨_, hvalue, h⟩ => Except.ok.inj hvalue ▸ h⟩

@[simp]
theorem failsWith_okOr {result : Option α} {e : ε} :
    FailsWith bad (okOr result e) ↔ result = none ∧ bad e := by
  cases result with
  | none => exact failsWith_error.trans (and_iff_right rfl).symm
  | some value => exact failsWith_ok.trans (by simp)

theorem failsWith_mapErr {bad : ε' → Prop} {f : ε → ε'} {result : Except ε α} :
    FailsWith bad (mapErr f result) ↔ FailsWith (fun e => bad (f e)) result := by
  cases result with
  | ok value => simp only [mapErr, failsWith_ok]
  | error e => simp only [mapErr, failsWith_error]

theorem failsWith_map {f : α → β} {result : Except ε α} :
    FailsWith bad (result.map f) ↔ FailsWith bad result := by
  cases result with
  | ok value => simp only [Except.map, failsWith_ok]
  | error e => simp only [Except.map, failsWith_error]

/-- A guard fails, or what is behind it. -/
theorem failsWith_guard {c : Prop} [Decidable c] {e : ε} {rest : Except ε α} :
    FailsWith bad (if c then .error e else rest) ↔ (c ∧ bad e) ∨ (¬ c ∧ FailsWith bad rest) := by
  by_cases hc : c <;> simp [hc]

/-- A failure of one kind is one of a wider kind. -/
theorem FailsWith.imp {bad' : ε → Prop} {result : Except ε α} (h : FailsWith bad result)
    (himp : ∀ e, bad e → bad' e) : FailsWith bad' result := by
  obtain ⟨e, hresult, hbad⟩ := h
  exact ⟨e, hresult, himp e hbad⟩

theorem failsWith_true_iff {result : Except ε α} :
    FailsWith (fun _ => True) result ↔ ∃ e, result = .error e := by
  simp [FailsWith]

theorem not_failsWith_false {result : Except ε α} : ¬ FailsWith (fun _ => False) result :=
  fun h => h.choose_spec.2

end Checked
