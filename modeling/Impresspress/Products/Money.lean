import Impresspress.Checked.Arithmetic
import Impresspress.Text.Numerals
import Mathlib.Data.String.Basic

/-!
# Decimals and amounts of money

Amounts of money are whole numbers of minor units. A decimal is read from its text without passing
through a binary fraction, and worth a number of minor units in a currency.

## Main definitions

* `Products.Money.Decimal`: a decimal without trailing zeros, of at most nine places.
* `Products.Money.Decimal.parse`, `Products.Money.Decimal.canonical`: reading and writing one.
* `Products.Money.Decimal.compare`, `Products.Money.Decimal.isStepFrom`,
  `Products.Money.Decimal.multiplyMinor`, `Products.Money.Decimal.toMinor`: the operations.
* `Products.Money.parseAmountMinor`, `Products.Money.formatAmountMinor`: amounts in minor units.

Source: `blocks/products/money.rs`.
-/

namespace Products

namespace Money

open Text Checked

/-! ### Currencies -/

/-- The most fractional digits a decimal may carry. -/
def maxDecimalScale : ℕ := 9

/-- `str::to_ascii_uppercase`. -/
def toAsciiUppercase (text : String) : String := String.ofList (text.toList.map Char.toUpper)

/-- A three-letter code in capitals. -/
def normalizeCurrency (value : String) : Except String String :=
  let value := String.ofList (trim value.toList)
  if value.utf8ByteSize ≠ 3 ∨ ¬ value.toList.all Char.isAlpha then
    .error "currency must be a three-letter ISO code"
  else .ok (toAsciiUppercase value)

/-- A currency is the same in letters of another case. -/
theorem normalizeCurrency_map {f : Char → Char} (hf : ∀ c, SameLetter c (f c)) (value : String) :
    normalizeCurrency (String.ofList (value.toList.map f)) = normalizeCurrency value := by
  have hsize (text : List Char) : (String.ofList (text.map f)).utf8ByteSize =
      (String.ofList text).utf8ByteSize := by
    rw [String.utf8ByteSize_ofList, String.utf8ByteSize_ofList]
    induction text with
    | nil => rfl
    | cons c text ih => rw [List.map_cons, String.utf8Len, String.utf8Len, ih, (hf c).2.2.1]
  have hall (text : List Char) : (text.map f).all Char.isAlpha = text.all Char.isAlpha := by
    rw [List.all_map]
    exact congrArg text.all (funext fun c => (hf c).2.1)
  have hupper (text : List Char) : (text.map f).map Char.toUpper = text.map Char.toUpper := by
    rw [List.map_map]
    exact List.map_congr_left fun c _ => (hf c).2.2.2
  simp only [normalizeCurrency, toAsciiUppercase, String.toList_ofList, trim_map hf, hsize, hall,
    hupper]

theorem normalizeCurrency_of_eqIgnoreAsciiCase {left right : String}
    (h : eqIgnoreAsciiCase left.toList right.toList = true) :
    normalizeCurrency left = normalizeCurrency right := by
  rw [← normalizeCurrency_map sameLetter_toLower left, eq_of_beq h,
    normalizeCurrency_map sameLetter_toLower right]

/-- A currency that was normalized stays as it is. -/
theorem normalizeCurrency_normalized {value currency : String}
    (h : normalizeCurrency value = .ok currency) : normalizeCurrency currency = .ok currency := by
  unfold normalizeCurrency at h
  obtain ⟨hcode, h⟩ := guard_eq_ok.mp h
  obtain rfl := Except.ok.inj h
  rw [toAsciiUppercase, normalizeCurrency_map sameLetter_toUpper]
  have htrim := trim_of_trimmed (trimmed_trim value.toList)
  unfold normalizeCurrency
  simp only [String.toList_ofList, htrim, toAsciiUppercase] at hcode ⊢
  rw [if_neg hcode]

/-- The number of decimal places of a currency. -/
def currencyExponent (currency : String) : Except String ℕ := do
  let currency ← normalizeCurrency currency
  if currency ∈ ["BIF", "CLP", "DJF", "GNF", "JPY", "KMF", "KRW", "MGA", "PYG", "RWF", "UGX",
      "VND", "VUV", "XAF", "XOF", "XPF"] then
    return 0
  else if currency ∈ ["BHD", "JOD", "KWD", "OMR", "TND"] then
    return 3
  else
    return 2

theorem currencyExponent_le {currency : String} {exponent : ℕ}
    (h : currencyExponent currency = .ok exponent) : exponent ≤ 3 := by
  obtain ⟨code, -, h⟩ := bind_eq_ok.mp h
  split_ifs at h <;> cases h <;> decide

/-! ### Reading a decimal -/

/-- A fraction of at most nine places, without trailing zeros. -/
@[ext]
structure Decimal where
  coefficient : ℤ
  scale : ℕ
  neg_lt : -2 ^ 127 < coefficient
  lt : coefficient < 2 ^ 127
  scale_le : scale ≤ maxDecimalScale
  reduced : Reduced coefficient scale
  deriving DecidableEq

namespace Decimal

/-- The number that a decimal is. -/
def value (d : Decimal) : ℚ := scaled d.coefficient d.scale

/-- The whole number `value`. -/
def fromInteger (value : I64) : Decimal where
  coefficient := value
  scale := 0
  neg_lt := by have := value.2; omega
  lt := by have := value.2; omega
  scale_le := Nat.zero_le _
  reduced := .inl rfl

/-- The sign taken off: whether it is a minus, and the rest. -/
def splitSign : List Char → Bool × List Char
  | '-' :: value => (true, value)
  | '+' :: value => (false, value)
  | value => (false, value)

/-- The loop that takes trailing zeros off. -/
def strip : ℤ → ℕ → ℤ × ℕ
  | coefficient, 0 => (coefficient, 0)
  | coefficient, scale + 1 =>
    if coefficient.tmod 10 = 0 then strip (coefficient.tdiv 10) scale else (coefficient, scale + 1)

theorem scaled_strip (coefficient : ℤ) (scale : ℕ) :
    scaled (strip coefficient scale).1 (strip coefficient scale).2 = scaled coefficient scale := by
  induction scale generalizing coefficient with
  | zero => rfl
  | succ scale ih =>
    rw [strip]
    split_ifs with h
    · rw [ih, scaled_eq_iff, pow_succ, ← mul_assoc]
      have hten := Int.mul_tdiv_add_tmod coefficient 10
      rw [h, add_zero] at hten
      rw [mul_right_comm, mul_comm _ (10 : ℤ), hten]
    · rfl

theorem reduced_strip (coefficient : ℤ) (scale : ℕ) :
    Reduced (strip coefficient scale).1 (strip coefficient scale).2 := by
  induction scale generalizing coefficient with
  | zero => exact .inl rfl
  | succ scale ih =>
    rw [strip]
    split_ifs with h
    · exact ih _
    · exact .inr fun hdvd => h (Int.tmod_eq_zero_of_dvd hdvd)

theorem abs_strip_le (coefficient : ℤ) (scale : ℕ) :
    |(strip coefficient scale).1| ≤ |coefficient| := by
  induction scale generalizing coefficient with
  | zero => exact le_rfl
  | succ scale ih =>
    rw [strip]
    split_ifs with h
    · refine (ih _).trans ?_
      rw [Int.abs_eq_natAbs, Int.abs_eq_natAbs, Int.natAbs_tdiv]
      exact_mod_cast Nat.div_le_self _ _
    · exact le_rfl

/-- The coefficient with its sign. -/
def signed (negative : Bool) (magnitude : ℤ) : ℤ := if negative then -magnitude else magnitude

theorem abs_signed (negative : Bool) (magnitude : ℤ) :
    |signed negative magnitude| = |magnitude| := by
  cases negative
  · rfl
  · exact abs_neg magnitude

/-- The decimal without the trailing zeros of this fraction. -/
def normalized (coefficient : ℤ) (scale : ℕ) (hfits : |coefficient| < 2 ^ 127) :
    Except String Decimal :=
  if hscale : maxDecimalScale < (strip coefficient scale).2 then
    .error s!"must have at most {maxDecimalScale} decimal places"
  else
    have habs := abs_lt.mp ((abs_strip_le coefficient scale).trans_lt hfits)
    .ok ⟨(strip coefficient scale).1, (strip coefficient scale).2, habs.1, habs.2,
      Nat.not_lt.mp hscale, reduced_strip _ _⟩

theorem abs_signed_lt {negative : Bool} {n : ℕ} (h : n < 2 ^ 127) :
    |signed negative n| < 2 ^ 127 := by
  rw [abs_signed, abs_of_nonneg (Int.natCast_nonneg _)]
  exact_mod_cast h

/-- The decimal with these digits before and behind the dot. They are read as one `i128` before
trailing zeros are taken off, and the places are counted in a `u32`. -/
def ofParts (negative : Bool) (whole fraction : List Char) : Except String Decimal :=
  let digits := (if whole = [] then ['0'] else whole) ++ fraction
  if h : digitsValue digits < 2 ^ 127 then
    normalized (signed negative (digitsValue digits)) (fraction.length % 2 ^ 32) (abs_signed_lt h)
  else .error "number is too large"

/-- Reads a plain decimal text. -/
def parse (input : String) : Except String Decimal :=
  let read := splitSign (trim input.toList)
  let parts := read.2.splitOn '.'
  let whole := parts.getD 0 []
  let fraction := parts.getD 1 []
  if 2 < parts.length ∨ (whole = [] ∧ fraction = []) ∨ ¬ whole.all Char.isDigit ∨
      ¬ fraction.all Char.isDigit then
    .error "must be a plain decimal number"
  else ofParts read.1 whole fraction

/-! ### Operations -/

/-- The coefficient of the same number with `scale` fractional places. -/
def aligned (d : Decimal) (scale : ℕ) : Except String ℤ := do
  if scale < d.scale then
    throw s!"value has more than {scale} decimal places"
  let multiplier ← okOr (i128 (10 ^ (scale - d.scale))) "number is too large"
  okOr (i128 (d.coefficient * multiplier)) "number is too large"

def compare (d other : Decimal) : Except String Ordering := do
  let scale := max d.scale other.scale
  let left ← d.aligned scale
  let right ← other.aligned scale
  return Ord.compare left right

def isStepFrom (d base step : Decimal) : Except String Bool := do
  if step.coefficient ≤ 0 then
    throw "step must be greater than zero"
  let scale := max (max d.scale base.scale) step.scale
  let left ← d.aligned scale
  let right ← base.aligned scale
  let difference ← okOr (i128 (left - right)) "number is too large"
  let size ← step.aligned scale
  return difference.tmod size = 0

def multiplyMinor (d : Decimal) (amountMinor : ℤ) : Except String ℤ := do
  let numerator ← okOr (i128 (d.coefficient * amountMinor)) "calculated amount is too large"
  let denominator ← okOr (i128 (10 ^ d.scale)) "number is too large"
  if numerator.tmod denominator ≠ 0 then
    throw "value does not resolve to a whole minor-unit amount; adjust the value or rate"
  okOr (i64 (numerator.tdiv denominator)) "calculated amount is too large"

def asU64 (d : Decimal) : Option ℕ := do
  let denominator ← i128 (10 ^ d.scale)
  if d.coefficient < 0 ∨ d.coefficient.tmod denominator ≠ 0 then
    none
  u64 (d.coefficient.tdiv denominator).toNat

def canonical (d : Decimal) : String :=
  let sign := if d.coefficient < 0 then ['-'] else []
  let digits := Nat.toDigits 10 d.coefficient.natAbs
  if d.scale = 0 then
    String.ofList (sign ++ digits)
  else
    let padded :=
      if digits.length ≤ d.scale then
        List.replicate (d.scale + 1 - digits.length) '0' ++ digits
      else digits
    let split := padded.length - d.scale
    String.ofList (sign ++ padded.take split ++ '.' :: padded.drop split)

/-- The number of minor units of a currency, which may be negative. -/
def toSignedMinor (d : Decimal) (currency : String) : Except String ℤ := do
  let exponent ← currencyExponent currency
  if exponent < d.scale then
    throw s!"amount has more than {exponent} decimal places for the currency"
  let minor ← mapErr (fun _ => "amount is too large") (d.aligned exponent)
  okOr (i64 minor) "amount is too large"

/-- The number of minor units of a currency. -/
def toMinor (d : Decimal) (currency : String) : Except String ℤ := do
  if d.coefficient < 0 then
    let _ ← currencyExponent currency
    throw "amount must not be negative"
  d.toSignedMinor currency

end Decimal

/-! ### Amounts -/

def parseAmountMinor (input currency : String) : Except String ℤ := do
  let _ ← currencyExponent currency
  let value ← Decimal.parse input
  value.toMinor currency

def formatAmountMinor (amountMinor : ℤ) (currency : String) : Except String String := do
  let exponent ← currencyExponent currency
  let sign := if amountMinor < 0 then ['-'] else []
  if exponent = 0 then
    return String.ofList (sign ++ Nat.toDigits 10 amountMinor.natAbs)
  let multiplier := 10 ^ exponent
  let absolute := amountMinor.natAbs
  return String.ofList (sign ++ Nat.toDigits 10 (absolute / multiplier) ++
    '.' :: padded (absolute % multiplier) exponent)

end Money

end Products
