import Mathlib.Algebra.Order.Ring.Int
import Mathlib.Tactic.Common

/-!
# Checked arithmetic

A machine integer is an integer within the range of its type. An operation that may leave the range
gives the exact result if the type holds it, and nothing otherwise. A computation over such
operations stops at the first one that fails.

## Main definitions

* `Checked.I64`: the integers of a machine type.
* `Checked.i64`, `Checked.i128`, `Checked.u64`: an exact result, if the type holds it.
* `Checked.okOr`: a missing result as an error.

## Main results

* `Checked.bind_eq_ok`, `Checked.okOr_eq_ok`, `Checked.guard_eq_ok`: what a computation that succeeds has gone through.
-/

namespace Checked

variable {ε ε' α β : Type}

/-- The integers that `i64` holds. -/
abbrev I64 := { value : ℤ // -2 ^ 63 ≤ value ∧ value < 2 ^ 63 }

def i64 (value : ℤ) : Option ℤ := if -2 ^ 63 ≤ value ∧ value < 2 ^ 63 then some value else none

def i128 (value : ℤ) : Option ℤ := if -2 ^ 127 ≤ value ∧ value < 2 ^ 127 then some value else none

def u64 (value : ℕ) : Option ℕ := if value < 2 ^ 64 then some value else none

/-- `Option::ok_or`. -/
def okOr (result : Option α) (error : ε) : Except ε α :=
  match result with
  | some value => .ok value
  | none => .error error

/-- `Result::map_err`. -/
def mapErr (f : ε → ε') : Except ε α → Except ε' α
  | .ok value => .ok value
  | .error error => .error (f error)

/-- `Option::map` and `Option::transpose`. -/
def transpose (f : α → Except ε β) : Option α → Except ε (Option β)
  | none => .ok none
  | some value => (f value).map some

@[simp]
theorem i64_eq_some_iff {value result : ℤ} :
    i64 value = some result ↔ value = result ∧ -2 ^ 63 ≤ value ∧ value < 2 ^ 63 := by
  unfold i64
  split_ifs with h
  · rw [Option.some.injEq]
    exact (and_iff_left h).symm
  · exact iff_of_false id fun hresult => h hresult.2

theorem i64_eq_none {value : ℤ} (h : 2 ^ 63 ≤ value) : i64 value = none :=
  if_neg fun hfits => absurd hfits.2 (Int.not_lt.mpr h)

/-- A value that is not negative overflows at the upper end only. -/
theorem i128_of_nonneg {value : ℤ} (h : 0 ≤ value) :
    i128 value = if value < 2 ^ 127 then some value else none := by
  have hlow : (-2 ^ 127 : ℤ) ≤ value := Int.le_trans (by decide) h
  unfold i128
  simp only [hlow, true_and]

@[simp]
theorem i128_eq_some_iff {value result : ℤ} :
    i128 value = some result ↔ value = result ∧ -2 ^ 127 ≤ value ∧ value < 2 ^ 127 := by
  unfold i128
  split_ifs with h
  · rw [Option.some.injEq]
    exact (and_iff_left h).symm
  · exact iff_of_false id fun hresult => h hresult.2

@[simp]
theorem u64_eq_some_iff {value result : ℕ} :
    u64 value = some result ↔ value = result ∧ value < 2 ^ 64 := by
  unfold u64
  split_ifs with h
  · rw [Option.some.injEq]
    exact (and_iff_left h).symm
  · exact iff_of_false id fun hresult => h hresult.2

@[simp]
theorem okOr_eq_ok {result : Option α} {error : ε} {value : α} :
    okOr result error = .ok value ↔ result = some value := by
  cases result <;> simp [okOr]

@[simp]
theorem okOr_eq_error {result : Option α} {error e : ε} :
    okOr result error = .error e ↔ result = none ∧ error = e := by
  cases result <;> simp [okOr]

@[simp]
theorem mapErr_eq_ok {f : ε → ε'} {result : Except ε α} {value : α} :
    mapErr f result = .ok value ↔ result = .ok value := by
  cases result <;> simp [mapErr]

@[simp]
theorem mapErr_eq_error {f : ε → ε'} {result : Except ε α} {e : ε'} :
    mapErr f result = .error e ↔ ∃ e', result = .error e' ∧ f e' = e := by
  cases result <;> simp [mapErr]

@[simp]
theorem transpose_eq_ok_none {f : α → Except ε β} {value : Option α} :
    transpose f value = .ok none ↔ value = none := by
  cases value with
  | none => simp [transpose]
  | some value => cases h : f value <;> simp [transpose, h, Except.map]

@[simp]
theorem transpose_eq_ok_some {f : α → Except ε β} {value : Option α} {result : β} :
    transpose f value = .ok (some result) ↔ ∃ a, value = some a ∧ f a = .ok result := by
  cases value with
  | none => simp [transpose]
  | some value => cases h : f value <;> simp [transpose, h, Except.map]

@[simp]
theorem transpose_eq_error {f : α → Except ε β} {value : Option α} {e : ε} :
    transpose f value = .error e ↔ ∃ a, value = some a ∧ f a = .error e := by
  cases value with
  | none => simp [transpose]
  | some value => cases h : f value <;> simp [transpose, h, Except.map]

/-- A guard lets pass what does not meet its condition. -/
theorem guard_eq_ok {c : Prop} [Decidable c] {e : ε} {rest : Except ε α} {value : α} :
    (if c then .error e else rest) = .ok value ↔ ¬ c ∧ rest = .ok value := by
  by_cases hc : c <;> simp [hc]

theorem guard_eq_error {c : Prop} [Decidable c] {e e' : ε} {rest : Except ε α} :
    (if c then .error e else rest) = .error e' ↔ (c ∧ e = e') ∨ (¬ c ∧ rest = .error e') := by
  by_cases hc : c <;> simp [hc]

/-- A sequence that succeeds succeeds in both parts. -/
theorem bind_eq_ok {first : Except ε α} {next : α → Except ε β} {result : β} :
    first >>= next = .ok result ↔ ∃ value, first = .ok value ∧ next value = .ok result := by
  cases first <;> simp [bind, Except.bind]

/-- A sequence that fails fails in its first part, or in the other one after it. -/
theorem bind_eq_error {first : Except ε α} {next : α → Except ε β} {e : ε} :
    first >>= next = .error e ↔
      first = .error e ∨ ∃ value, first = .ok value ∧ next value = .error e := by
  cases first <;> simp [bind, Except.bind]

end Checked
