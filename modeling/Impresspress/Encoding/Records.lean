import Mathlib.Data.List.Basic
import Mathlib.Tactic.Common
import Mathlib.Tactic.Ring

/-!
# Records of bytes

Records are written field by field: numbers of a fixed width, the lowest byte first, and bytes whose
number a field before them tells. A reader takes them off the front of its input in the same order.

## Main definitions

* `Records.encode`, `Records.value`: a number as bytes, and the number of some bytes.
* `Records.Reader`: what reads records.
* `Records.Reads`: a reader takes off exactly what was written.

## Main results

* `Records.Reads.bind`, `Records.reads_times`: records after one another.
* `Records.reads_number`: a number that fits its width is read back.
-/

namespace Records

/-! ## Numbers -/

/-- The number in so many bytes; what does not fit is dropped. -/
def encode : ℕ → ℕ → List UInt8
  | 0, _ => []
  | width + 1, n => UInt8.ofNat n :: encode width (n / 256)

/-- The number of some bytes. -/
def value : List UInt8 → ℕ
  | [] => 0
  | b :: bytes => b.toNat + 256 * value bytes

@[simp]
theorem length_encode (width n : ℕ) : (encode width n).length = width := by
  induction width generalizing n with
  | zero => rfl
  | succ width ih => rw [encode, List.length_cons, ih]

/-- A number that fits is the one that was written. -/
theorem value_encode {width n : ℕ} (h : n < 256 ^ width) : value (encode width n) = n := by
  induction width generalizing n with
  | zero =>
    rw [pow_zero, Nat.lt_one_iff] at h
    rw [h]
    rfl
  | succ width ih =>
    have hquotient : n / 256 < 256 ^ width := by
      rw [pow_succ] at h
      exact Nat.div_lt_of_lt_mul (by rwa [Nat.mul_comm] at h)
    rw [encode, value, ih hquotient, UInt8.toNat_ofNat']
    exact Nat.mod_add_div n 256

/-! ## Readers -/

/-- What takes bytes off the front of its input. -/
abbrev Reader := StateT (List UInt8) Option

/-- So many bytes. -/
def bytes (n : ℕ) : Reader (List UInt8) := fun input =>
  if n ≤ input.length then some (input.take n, input.drop n) else none

def number (width : ℕ) : Reader ℕ := do
  let read ← bytes width
  pure (value read)

/-- A field that is known. -/
def expect (width n : ℕ) : Reader Unit := do
  let read ← number width
  guard (read = n)

/-- The same record so many times. -/
def times {α : Type} (r : Reader α) : ℕ → Reader (List α)
  | 0 => pure []
  | n + 1 => do
    let first ← r
    let rest ← times r n
    pure (first :: rest)

variable {α β : Type}

/-- The reader takes off exactly what was written, and has read `a`. -/
def Reads (r : Reader α) (written : List UInt8) (a : α) : Prop :=
  ∀ rest, r.run (written ++ rest) = some (a, rest)

theorem reads_pure (a : α) : Reads (pure a) [] a := fun _ => rfl

theorem Reads.bind {r : Reader α} {f : α → Reader β} {written written' : List UInt8} {a : α} {b : β}
    (hr : Reads r written a) (hf : Reads (f a) written' b) :
    Reads (r >>= f) (written ++ written') b := fun rest => by
  rw [StateT.run_bind, List.append_assoc, hr, Option.bind_eq_bind, Option.bind_some]
  exact hf rest

/-- Nothing is written for what comes after. -/
theorem Reads.bind_last {r : Reader α} {f : α → Reader β} {written : List UInt8} {a : α} {b : β}
    (hr : Reads r written a) (hf : Reads (f a) [] b) : Reads (r >>= f) written b := by
  have h := hr.bind hf
  rwa [List.append_nil] at h

theorem reads_bytes (written : List UInt8) : Reads (bytes written.length) written written := by
  intro rest
  have hlength : written.length ≤ (written ++ rest).length := by
    rw [List.length_append]
    exact Nat.le_add_right _ _
  change (if written.length ≤ (written ++ rest).length then _ else _) = _
  rw [if_pos hlength, List.take_left, List.drop_left]

theorem reads_number {width n : ℕ} (h : n < 256 ^ width) :
    Reads (number width) (encode width n) n := by
  have hread := reads_bytes (encode width n)
  rw [length_encode] at hread
  have hnumber : Reads (number width) (encode width n) (value (encode width n)) :=
    hread.bind_last (reads_pure _)
  rwa [value_encode h] at hnumber

theorem reads_guard {p : Prop} [Decidable p] (h : p) : Reads (guard p) [] () := fun _ => by
  rw [guard, if_pos h]
  rfl

theorem reads_expect {width n : ℕ} (h : n < 256 ^ width) :
    Reads (expect width n) (encode width n) () :=
  (reads_number h).bind_last (reads_guard rfl)

/-- No bytes are taken off. -/
theorem Reads.bytes_zero_bind {f : List UInt8 → Reader β} {written : List UInt8} {b : β}
    (hf : Reads (f []) written b) : Reads (bytes 0 >>= f) written b :=
  (reads_bytes []).bind hf

/-- Records after one another. -/
theorem reads_times {γ : Type} {r : Reader α} {written : γ → List UInt8} {read : γ → α}
    (l : List γ) (h : ∀ x ∈ l, Reads r (written x) (read x)) :
    Reads (times r l.length) (l.flatMap written) (l.map read) := by
  induction l with
  | nil => exact reads_pure []
  | cons x l ih =>
    rw [List.flatMap_cons, List.map_cons]
    exact (h x List.mem_cons_self).bind
      ((ih fun y hy => h y (List.mem_cons_of_mem x hy)).bind_last (reads_pure _))

/-- A reader that takes off everything. -/
theorem Reads.all {r : Reader α} {written : List UInt8} {a : α} (h : Reads r written a) :
    r.run written = some (a, []) := by
  have hall := h []
  rwa [List.append_nil] at hall

end Records
