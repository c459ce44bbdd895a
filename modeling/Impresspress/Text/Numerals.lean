import Impresspress.Text.Fields
import Mathlib.Data.Rat.Lemmas
import Mathlib.Tactic.FieldSimp
import Mathlib.Tactic.Positivity
import Mathlib.Tactic.Ring
import Mathlib.Tactic.Linarith

/-!
# Plain decimal numerals

A numeral is an optional sign, digits, and optionally a dot with more digits behind it. It stands
for a rational number: the number its digits write, as one, over a power of ten. Such a fraction
can be written in one way without trailing zeros.

## Main definitions

* `Text.digitsValue`: the number that digits write.
* `Text.Numeral`: a numeral, with its text and its value.
* `Text.scaled`, `Text.Reduced`: a fraction over a power of ten, and one without trailing zeros.

## Main results

* `Text.Reduced.unique`: two fractions without trailing zeros are equal only if they are the same.
* `Text.Reduced.exists_mul_pow`: the other ways to write a fraction only add trailing zeros.
-/

namespace Text

/-! ## Digits -/

/-- The number that digits write. -/
def digitsValue (digits : List Char) : ℕ := Nat.ofDigitChars 10 digits 0

variable {front back digits : List Char}

@[simp]
theorem digitsValue_nil : digitsValue [] = 0 := Nat.ofDigitChars_nil

theorem digitsValue_append (front back : List Char) :
    digitsValue (front ++ back) = 10 ^ back.length * digitsValue front + digitsValue back := by
  rw [digitsValue, Nat.ofDigitChars_append, Nat.ofDigitChars_eq_ofDigitChars_zero]
  rfl

@[simp]
theorem digitsValue_replicate_zero (n : ℕ) : digitsValue (List.replicate n '0') = 0 := by
  rw [digitsValue, Nat.ofDigitChars_replicate_zero, Nat.mul_zero]

@[simp]
theorem digitsValue_toDigits (n : ℕ) : digitsValue (Nat.toDigits 10 n) = n :=
  Nat.ofDigitChars_ten_toDigits

theorem toNat_of_isDigit {c : Char} (h : c.isDigit) : 48 ≤ c.toNat ∧ c.toNat ≤ 57 := by
  simp only [Char.isDigit, Bool.and_eq_true, decide_eq_true_eq, UInt32.le_iff_toNat_le] at h
  exact h

theorem digitsValue_lt (h : ∀ c ∈ digits, c.isDigit) : digitsValue digits < 10 ^ digits.length := by
  induction digits with
  | nil => exact Nat.one_pos
  | cons c digits ih =>
    have hrest := ih fun d hd => h d (List.mem_cons_of_mem _ hd)
    have hc : digitsValue [c] ≤ 9 := by
      have hle := (toNat_of_isDigit (h c List.mem_cons_self)).2
      have hzero : '0'.toNat = 48 := rfl
      simp only [digitsValue, Nat.ofDigitChars_cons, Nat.ofDigitChars_nil]
      omega
    rw [← List.singleton_append, digitsValue_append, List.length_append, List.length_singleton,
      pow_add, pow_one]
    nlinarith

theorem isDigit_of_mem_toDigits {n : ℕ} {c : Char} (h : c ∈ Nat.toDigits 10 n) : c.isDigit :=
  Nat.isDigit_of_mem_toDigits (by decide) (by decide) h

/-- The digits of a number with zeros ahead of them. -/
def padded (n places : ℕ) : List Char :=
  List.replicate (places - (Nat.toDigits 10 n).length) '0' ++ Nat.toDigits 10 n

@[simp]
theorem digitsValue_padded (n places : ℕ) : digitsValue (padded n places) = n := by
  rw [padded, digitsValue_append, digitsValue_replicate_zero, digitsValue_toDigits, Nat.mul_zero,
    Nat.zero_add]

theorem isDigit_of_mem_padded {n places : ℕ} {c : Char} (h : c ∈ padded n places) : c.isDigit := by
  rcases List.mem_append.mp h with h | h
  · rw [List.eq_of_mem_replicate h]
    rfl
  · exact isDigit_of_mem_toDigits h

theorem length_padded {n places : ℕ} (h : (Nat.toDigits 10 n).length ≤ places) :
    (padded n places).length = places := by
  rw [padded, List.length_append, List.length_replicate, Nat.sub_add_cancel h]

/-! ## Fractions over a power of ten -/

/-- `coefficient` over ten to the `scale`. -/
def scaled (coefficient : ℤ) (scale : ℕ) : ℚ := coefficient / 10 ^ scale

/-- The fraction has no trailing zero. -/
def Reduced (coefficient : ℤ) (scale : ℕ) : Prop := scale = 0 ∨ ¬ (10 : ℤ) ∣ coefficient

instance (coefficient : ℤ) (scale : ℕ) : Decidable (Reduced coefficient scale) :=
  inferInstanceAs (Decidable (_ ∨ _))

variable {a b : ℤ} {m n : ℕ}

theorem scaled_eq_iff : scaled a m = scaled b n ↔ a * 10 ^ n = b * 10 ^ m := by
  unfold scaled
  rw [div_eq_div_iff (by positivity) (by positivity)]
  exact_mod_cast Iff.rfl

/-- A fraction without trailing zeros has the fewest places, and any other way to write it has more
zeros. -/
theorem Reduced.exists_mul_pow (h : Reduced a m) (heq : scaled a m = scaled b n) :
    m ≤ n ∧ b = a * 10 ^ (n - m) := by
  have hprod := scaled_eq_iff.mp heq
  have hle : m ≤ n := by
    by_contra hlt
    rcases h with rfl | h
    · exact hlt (Nat.zero_le n)
    · obtain ⟨k, rfl⟩ : ∃ k, m = n + (k + 1) := ⟨m - n - 1, by omega⟩
      refine h ⟨b * 10 ^ k, ?_⟩
      have hpos : (10 : ℤ) ^ n ≠ 0 := by positivity
      apply mul_right_cancel₀ hpos
      rw [hprod]
      ring
  refine ⟨hle, ?_⟩
  have hpos : (10 : ℤ) ^ m ≠ 0 := by positivity
  apply mul_right_cancel₀ hpos
  rw [← hprod, mul_assoc, ← pow_add, Nat.sub_add_cancel hle]

/-- Without trailing zeros there is one way to write a fraction. -/
theorem Reduced.unique (h : Reduced a m) (h' : Reduced b n) (heq : scaled a m = scaled b n) :
    a = b ∧ m = n := by
  obtain ⟨hle, hb⟩ := h.exists_mul_pow heq
  have hmn : m = n := le_antisymm hle (h'.exists_mul_pow heq.symm).1
  subst hmn
  rw [Nat.sub_self, pow_zero, mul_one] at hb
  exact ⟨hb.symm, rfl⟩

/-! ## Numerals -/

inductive Sign where
  | unsigned
  | plus
  | minus
  deriving DecidableEq, Repr

/-- The text of a sign. -/
def Sign.text : Sign → List Char
  | unsigned => []
  | plus => ['+']
  | minus => ['-']

/-- An optional sign, digits, and optionally a dot with digits behind it; there is a digit. -/
structure Numeral where
  sign : Sign
  whole : List Char
  point : Option (List Char)
  isDigit_whole : ∀ c ∈ whole, c.isDigit
  isDigit_point : ∀ c ∈ point.getD [], c.isDigit
  digits_ne_nil : whole ++ point.getD [] ≠ []

namespace Numeral

variable (n : Numeral)

/-- The digits behind the dot. -/
def places : List Char := n.point.getD []

/-- The digits behind the sign, with their dot. -/
def unsignedText : List Char :=
  match n.point with
  | none => n.whole
  | some places => n.whole ++ '.' :: places

def text : List Char := n.sign.text ++ n.unsignedText

/-- The number that the digits write as one, those behind the dot included. -/
def written : ℕ := digitsValue (n.whole ++ n.places)

/-- The value that the numeral stands for. -/
def value : ℚ := scaled (if n.sign = .minus then -(n.written : ℤ) else n.written) n.places.length

variable {n}

/-- What stands in a numeral. -/
theorem of_mem_unsignedText {c : Char} (h : c ∈ n.unsignedText) : c.isDigit ∨ c = '.' := by
  have hpoint := n.isDigit_point
  unfold unsignedText at h
  cases hn : n.point with
  | none =>
    rw [hn] at h
    exact .inl (n.isDigit_whole c h)
  | some places =>
    rw [hn] at h hpoint
    rcases List.mem_append.mp h with h | h
    · exact .inl (n.isDigit_whole c h)
    · exact (List.mem_cons.mp h).symm.imp_left (hpoint c)

theorem unsignedText_ne_nil : n.unsignedText ≠ [] := by
  have hne := n.digits_ne_nil
  unfold unsignedText
  cases hn : n.point with
  | none =>
    rw [hn, Option.getD_none, List.append_nil] at hne
    exact hne
  | some places => exact List.append_ne_nil_of_right_ne_nil _ (List.cons_ne_nil _ _)

/-- No white space stands in a numeral. -/
theorem isWhitespace_of_mem_text {c : Char} (h : c ∈ n.text) : isWhitespace c = false := by
  have hc : c.isDigit ∨ c = '.' ∨ c = '+' ∨ c = '-' := by
    rcases List.mem_append.mp h with h | h
    · cases hs : n.sign <;> rw [hs] at h
      · cases h
      · exact .inr (.inr (.inl (List.mem_singleton.mp h)))
      · exact .inr (.inr (.inr (List.mem_singleton.mp h)))
    · exact (of_mem_unsignedText h).imp_right .inl
  rcases hc with hc | rfl | rfl | rfl
  · obtain ⟨hlow, hhigh⟩ := toNat_of_isDigit hc
    simp only [isWhitespace, Bool.or_eq_false_iff, Bool.and_eq_false_iff, decide_eq_false_iff_not,
      beq_eq_false_iff_ne]
    omega
  all_goals rfl

theorem trim_text : trim n.text = n.text :=
  trim_of_trimmed
    { head := fun _ hc => isWhitespace_of_mem_text (List.mem_of_mem_head? hc)
      last := fun _ hc => isWhitespace_of_mem_text (List.mem_of_getLast? hc) }

theorem ne_of_isDigit {c d : Char} (hc : c.isDigit) (hd : d.isDigit = false) : c ≠ d := by
  rintro rfl
  rw [hc] at hd
  cases hd

/-- The dot cuts the digits of a numeral. -/
theorem splitOn_unsignedText : n.unsignedText.splitOn '.' =
    match n.point with
    | none => [n.whole]
    | some places => [n.whole, places] := by
  have hwhole : '.' ∉ n.whole := fun hmem => ne_of_isDigit (n.isDigit_whole _ hmem) rfl rfl
  have hpoint := n.isDigit_point
  unfold unsignedText
  cases hn : n.point with
  | none => simpa using splitOn_front hwhole (List.splitOn_nil '.')
  | some places =>
    rw [hn] at hpoint
    have hplaces : '.' ∉ places := fun hmem => ne_of_isDigit (hpoint _ hmem) rfl rfl
    have hrest : ('.' :: places).splitOn '.' = [[], places] := by
      rw [List.splitOn_cons_eq_if_modifyHead, if_pos (beq_self_eq_true _)]
      simpa using splitOn_front hplaces (List.splitOn_nil '.')
    simpa using splitOn_front hwhole hrest

end Numeral

end Text
