import Impresspress.Products.Money
import Mathlib.Data.Int.ConditionallyCompleteOrder

/-!
# Decimals are exact

A decimal is the rational number that it is written as. Comparing, stepping, multiplying and
converting to minor units give what the same operation gives on rational numbers, or nothing. A
decimal and an amount are read back from the text that is written of them.

The digits of a text are read as one `i128`, before its trailing zeros are taken off. A number that
a decimal holds is not read where it is written with so many trailing zeros that the digits
overflow.

## Main definitions

* `Products.Money.Decimal.Representable`: the numbers that a decimal should hold.
* `Products.Money.Exact`: what exactness means, with a numeral that is to be read.

## Main results

* `Products.Money.Decimal.parse_numeral_iff`: which numerals are read as their value.
* `Products.Money.Decimal.parse_canonical`, `Products.Money.parseAmountMinor_format`: reading back.
-/

namespace Products

namespace Money

open Text Checked

namespace Decimal

variable {d e base step : Decimal}

/-! ### Operations -/

theorem value_injective : Function.Injective value := fun d e h => by
  obtain ⟨hcoefficient, hscale⟩ := d.reduced.unique e.reduced h
  exact Decimal.ext hcoefficient hscale

/-- Aligning does not change the number. -/
theorem scaled_of_aligned {scale : ℕ} {c : ℤ} (h : d.aligned scale = .ok c) :
    scaled c scale = d.value := by
  unfold aligned at h
  split_ifs at h with hlt
  · cases h
  obtain ⟨multiplier, hmultiplier, h⟩ := bind_eq_ok.mp h
  obtain ⟨rfl, -⟩ := i128_eq_some_iff.mp (okOr_eq_ok.mp hmultiplier)
  obtain ⟨rfl, -⟩ := i128_eq_some_iff.mp (okOr_eq_ok.mp h)
  rw [value, scaled_eq_iff, mul_assoc, ← pow_add, Nat.sub_add_cancel (Nat.not_lt.mp hlt)]

theorem strictMono_scaled (scale : ℕ) : StrictMono fun c => scaled c scale := fun a b h => by
  unfold scaled
  have hpos : (0 : ℚ) < 10 ^ scale := by positivity
  exact div_lt_div_of_pos_right (by exact_mod_cast h) hpos

theorem compare_eq_cmp {order : Ordering} (h : d.compare e = .ok order) :
    order = cmp d.value e.value := by
  obtain ⟨left, hleft, h⟩ := bind_eq_ok.mp h
  obtain ⟨right, hright, h⟩ := bind_eq_ok.mp h
  rw [← scaled_of_aligned hleft, ← scaled_of_aligned hright, (strictMono_scaled _).cmp_map_eq,
    cmp_eq_compare]
  exact (Except.ok.inj h).symm

theorem isStepFrom_iff {aligns : Bool} (h : d.isStepFrom base step = .ok aligns) :
    aligns = true ↔ ∃ k : ℤ, d.value - base.value = k * step.value := by
  unfold isStepFrom at h
  split_ifs at h with hpos
  · cases h
  obtain ⟨left, hleft, h⟩ := bind_eq_ok.mp h
  obtain ⟨right, hright, h⟩ := bind_eq_ok.mp h
  obtain ⟨difference, hdifference, h⟩ := bind_eq_ok.mp h
  obtain ⟨size, hsize, h⟩ := bind_eq_ok.mp h
  obtain ⟨rfl, -⟩ := i128_eq_some_iff.mp (okOr_eq_ok.mp hdifference)
  obtain rfl := (Except.ok.inj h).symm
  rw [← scaled_of_aligned hleft, ← scaled_of_aligned hright, ← scaled_of_aligned hsize,
    decide_eq_true_iff, ← Int.dvd_iff_tmod_eq_zero]
  have hten : (10 : ℚ) ^ max (max d.scale base.scale) step.scale ≠ 0 := by positivity
  constructor
  · rintro ⟨k, hk⟩
    refine ⟨k, ?_⟩
    simp only [scaled]
    rw [← sub_div, mul_div_assoc', mul_comm, ← Int.cast_sub, hk, Int.cast_mul]
  · rintro ⟨k, hk⟩
    refine ⟨k, ?_⟩
    simp only [scaled] at hk
    rw [← sub_div, mul_div_assoc', div_left_inj' hten] at hk
    rw [mul_comm]
    exact_mod_cast hk

theorem multiplyMinor_eq {amount result : ℤ} (h : d.multiplyMinor amount = .ok result) :
    (result : ℚ) = d.value * amount := by
  obtain ⟨numerator, hnumerator, h⟩ := bind_eq_ok.mp h
  obtain ⟨denominator, hdenominator, h⟩ := bind_eq_ok.mp h
  split_ifs at h with hdvd
  · cases h
  obtain ⟨rfl, -⟩ := i128_eq_some_iff.mp (okOr_eq_ok.mp hnumerator)
  obtain ⟨rfl, -⟩ := i128_eq_some_iff.mp (okOr_eq_ok.mp hdenominator)
  obtain ⟨rfl, -⟩ := i64_eq_some_iff.mp (okOr_eq_ok.mp h)
  have hten : (10 : ℚ) ^ d.scale ≠ 0 := by positivity
  have hprod := Int.mul_tdiv_add_tmod (d.coefficient * amount) (10 ^ d.scale)
  rw [not_not.mp hdvd, add_zero] at hprod
  rw [value, scaled, div_mul_eq_mul_div, eq_div_iff hten, mul_comm]
  exact_mod_cast hprod

theorem toSignedMinor_eq {currency : String} {minor : ℤ}
    (h : d.toSignedMinor currency = .ok minor) : ∃ exponent,
      currencyExponent currency = .ok exponent ∧ (minor : ℚ) = d.value * 10 ^ exponent := by
  obtain ⟨exponent, hexponent, h⟩ := bind_eq_ok.mp h
  split_ifs at h
  · cases h
  obtain ⟨aligned, haligned, h⟩ := bind_eq_ok.mp h
  obtain ⟨rfl, -⟩ := i64_eq_some_iff.mp (okOr_eq_ok.mp h)
  refine ⟨exponent, hexponent, ?_⟩
  rw [← scaled_of_aligned (mapErr_eq_ok.mp haligned), scaled, div_mul_cancel₀]
  positivity

theorem toMinor_eq {currency : String} {minor : ℤ} (h : d.toMinor currency = .ok minor) :
    ∃ exponent,
      currencyExponent currency = .ok exponent ∧ (minor : ℚ) = d.value * 10 ^ exponent := by
  unfold toMinor at h
  split_ifs at h
  · obtain ⟨exponent, -, h⟩ := bind_eq_ok.mp h
    cases h
  · exact toSignedMinor_eq h

/-! ### Reading -/

variable {negative : Bool} {whole fraction : List Char}

theorem normalized_eq_ok {coefficient : ℤ} {scale : ℕ} {hfits : |coefficient| < 2 ^ 127} :
    normalized coefficient scale hfits = .ok d ↔
      strip coefficient scale = (d.coefficient, d.scale) := by
  unfold normalized
  split
  · rename_i hscale
    refine iff_of_false nofun fun hread => Nat.not_lt.mpr d.scale_le ?_
    rwa [hread] at hscale
  · rw [Except.ok.injEq, Decimal.ext_iff, Prod.ext_iff]

theorem ofParts_eq_ok : ofParts negative whole fraction = .ok d ↔
    digitsValue (whole ++ fraction) < 2 ^ 127 ∧
      strip (signed negative (digitsValue (whole ++ fraction))) (fraction.length % 2 ^ 32) =
        (d.coefficient, d.scale) := by
  have hdigits : digitsValue ((if whole = [] then ['0'] else whole) ++ fraction) =
      digitsValue (whole ++ fraction) := by
    split_ifs with hwhole
    · rw [hwhole, digitsValue_append, digitsValue_append]
      rfl
    · rfl
  unfold ofParts
  simp only [hdigits]
  split
  · rename_i hlt
    rw [normalized_eq_ok]
    exact (and_iff_right hlt).symm
  · rename_i hlt
    exact iff_of_false nofun fun hfits => hlt hfits.1

variable (n : Numeral)

theorem splitSign_unsigned {text : List Char} (h : ∀ c ∈ text.head?, c ≠ '-' ∧ c ≠ '+') :
    splitSign text = (false, text) := by
  unfold splitSign
  split
  · exact absurd rfl (h _ rfl).1
  · exact absurd rfl (h _ rfl).2
  · rfl

theorem splitSign_text : splitSign n.text = (decide (n.sign = .minus), n.unsignedText) := by
  cases hs : n.sign <;> rw [Numeral.text, hs]
  · refine splitSign_unsigned fun c hc => ?_
    rcases Numeral.of_mem_unsignedText (List.mem_of_mem_head? hc) with hdigit | rfl
    · exact ⟨Numeral.ne_of_isDigit hdigit rfl, Numeral.ne_of_isDigit hdigit rfl⟩
    · exact ⟨by decide, by decide⟩
  · rfl
  · rfl

/-- A numeral is cut into its sign and its digits. -/
theorem parse_text : parse (String.ofList n.text) =
    ofParts (decide (n.sign = .minus)) n.whole n.places := by
  have hparts : (n.unsignedText.splitOn '.').length ≤ 2 ∧
      (n.unsignedText.splitOn '.').getD 0 [] = n.whole ∧
        (n.unsignedText.splitOn '.').getD 1 [] = n.places := by
    rw [Numeral.splitOn_unsignedText, Numeral.places]
    cases n.point
    · exact ⟨one_le_two, rfl, rfl⟩
    · exact ⟨le_rfl, rfl, rfl⟩
  unfold parse
  simp only [String.toList_ofList, Numeral.trim_text, splitSign_text, hparts.2.1, hparts.2.2]
  refine if_neg ?_
  rintro (hlen | ⟨hwhole, hplaces⟩ | hwhole | hplaces)
  · omega
  · exact n.digits_ne_nil (List.append_eq_nil_iff.mpr ⟨hwhole, hplaces⟩)
  · exact hwhole (List.all_eq_true.mpr n.isDigit_whole)
  · exact hplaces (List.all_eq_true.mpr n.isDigit_point)

theorem value_eq_scaled :
    n.value = scaled (signed (decide (n.sign = .minus)) n.written) n.places.length := by
  unfold Numeral.value signed
  simp only [decide_eq_true_eq]

theorem strip_zero (scale : ℕ) : strip 0 scale = (0, 0) := by
  induction scale with
  | zero => rfl
  | succ scale ih => exact (if_pos (Int.zero_tmod 10)).trans ih

/-- What is written as one `i128` is stripped to the fraction without trailing zeros, however many
places are counted modulo `2 ^ 32`. -/
theorem strip_eq {a c : ℤ} {m s : ℕ} (hfits : |a| < 2 ^ 127) (hs : s ≤ maxDecimalScale)
    (hreduced : Reduced c s) (heq : scaled c s = scaled a m) :
    strip a (m % 2 ^ 32) = (c, s) := by
  rcases Nat.lt_or_ge m (2 ^ 32) with hm | hm
  · rw [Nat.mod_eq_of_lt hm]
    have hsame := hreduced.unique (reduced_strip a m) (heq.trans (scaled_strip a m).symm)
    exact Prod.ext hsame.1.symm hsame.2.symm
  · obtain ⟨-, rfl⟩ := hreduced.exists_mul_pow heq
    have hc : c = 0 := by
      by_contra hne
      have hbig : (10 : ℤ) ^ 39 ≤ 10 ^ (m - s) :=
        pow_le_pow_right₀ (by norm_num) (by unfold maxDecimalScale at hs; omega)
      have hone : 1 ≤ |c| := Int.one_le_abs hne
      rw [abs_mul, abs_of_pos (by positivity : (0 : ℤ) < 10 ^ (m - s))] at hfits
      have hle : (10 : ℤ) ^ 39 ≤ |c| * 10 ^ (m - s) := by nlinarith
      have hlt := hle.trans_lt hfits
      norm_num at hlt
    subst hc
    have hzero : s = 0 := hreduced.resolve_right (not_not.mpr (dvd_zero 10))
    rw [hzero, zero_mul, strip_zero]

/-- The value is a decimal of at most nine places whose coefficient an `i128` holds. -/
def Representable (q : ℚ) : Prop :=
  ∃ c s, Reduced c s ∧ s ≤ maxDecimalScale ∧ -2 ^ 127 ≤ c ∧ c < 2 ^ 127 ∧ q = scaled c s

/-- A numeral of a representable value is read as that value exactly if all its digits, trailing
zeros included, are a number that an `i128` holds. -/
theorem parse_numeral_iff (h : Representable n.value) :
    (∃ d, parse (String.ofList n.text) = .ok d ∧ d.value = n.value) ↔ n.written < 2 ^ 127 := by
  rw [parse_text]
  constructor
  · rintro ⟨d, hd, -⟩
    exact (ofParts_eq_ok.mp hd).1
  · intro hfits
    obtain ⟨c, s, hreduced, hs, -, -, hvalue⟩ := h
    have habs : |signed (decide (n.sign = .minus)) n.written| < 2 ^ 127 := abs_signed_lt hfits
    have hstrip := strip_eq habs hs hreduced (hvalue.symm.trans (value_eq_scaled n))
    have hc := (abs_strip_le _ (n.places.length % 2 ^ 32)).trans_lt habs
    rw [hstrip] at hc
    obtain ⟨hlow, hhigh⟩ := abs_lt.mp hc
    exact ⟨⟨c, s, hlow, hhigh, hs, hreduced⟩, ofParts_eq_ok.mpr ⟨hfits, hstrip⟩, hvalue.symm⟩

/-! ### Writing -/

/-- Reading a text of a decimal's value back. -/
theorem parse_of_value (h : n.value = d.value) (hfits : n.written < 2 ^ 127) :
    parse (String.ofList n.text) = .ok d := by
  have hrepresentable : Representable n.value :=
    ⟨d.coefficient, d.scale, d.reduced, d.scale_le, d.neg_lt.le, d.lt, h⟩
  obtain ⟨e, he, hvalue⟩ := (parse_numeral_iff n hrepresentable).mpr hfits
  rw [he, value_injective (hvalue.trans h)]

theorem padded_length_le (n places : ℕ) : places ≤ (padded n places).length := by
  rw [padded, List.length_append, List.length_replicate]
  omega

/-- The numeral that `canonical` writes. -/
def numeral (d : Decimal) : Numeral :=
  let digits := padded d.coefficient.natAbs (d.scale + 1)
  { sign := if d.coefficient < 0 then .minus else .unsigned
    whole := digits.take (digits.length - d.scale)
    point := if d.scale = 0 then none else some (digits.drop (digits.length - d.scale))
    isDigit_whole := fun _ hc => isDigit_of_mem_padded (List.mem_of_mem_take hc)
    isDigit_point := fun c hc => by
      split_ifs at hc
      · cases hc
      · exact isDigit_of_mem_padded (List.mem_of_mem_drop hc)
    digits_ne_nil := by
      have hlen : d.scale + 1 ≤ digits.length := padded_length_le _ _
      refine List.append_ne_nil_of_left_ne_nil (List.ne_nil_of_length_pos ?_) _
      rw [List.length_take]
      omega }

variable (d)

theorem places_numeral : d.numeral.places =
    (padded d.coefficient.natAbs (d.scale + 1)).drop
      ((padded d.coefficient.natAbs (d.scale + 1)).length - d.scale) := by
  unfold Numeral.places numeral
  dsimp only
  split_ifs with hscale
  · rw [hscale, Nat.sub_zero, List.drop_length]
    rfl
  · rfl

theorem written_numeral : d.numeral.written = d.coefficient.natAbs := by
  rw [Numeral.written, places_numeral]
  unfold numeral
  rw [List.take_append_drop, digitsValue_padded]

theorem value_numeral : d.numeral.value = d.value := by
  have hlen := padded_length_le d.coefficient.natAbs (d.scale + 1)
  have hplaces : d.numeral.places.length = d.scale := by
    rw [places_numeral, List.length_drop]
    omega
  rw [Numeral.value, hplaces, written_numeral, value]
  unfold numeral
  congr 1
  by_cases hneg : d.coefficient < 0
  · rw [if_pos (if_pos hneg)]
    omega
  · simp only [if_neg hneg, reduceCtorEq, if_false]
    omega

theorem canonical_eq : d.canonical = String.ofList d.numeral.text := by
  have hsign : (if d.coefficient < 0 then ['-'] else []) = d.numeral.sign.text := by
    unfold numeral
    dsimp only
    split_ifs
    · rfl
    · rfl
  have hpadded : (if (Nat.toDigits 10 d.coefficient.natAbs).length ≤ d.scale then
      List.replicate (d.scale + 1 - (Nat.toDigits 10 d.coefficient.natAbs).length) '0' ++
        Nat.toDigits 10 d.coefficient.natAbs
      else Nat.toDigits 10 d.coefficient.natAbs) = padded d.coefficient.natAbs (d.scale + 1) := by
    unfold padded
    split_ifs with hlen
    · rfl
    · rw [Nat.sub_eq_zero_of_le (Nat.not_le.mp hlen)]
      rfl
  unfold canonical
  simp only [hsign, hpadded]
  rw [Numeral.text]
  split_ifs with hscale
  · have hpos : 0 < (Nat.toDigits 10 d.coefficient.natAbs).length := Nat.length_toDigits_pos
    have hnone : d.numeral.unsignedText = Nat.toDigits 10 d.coefficient.natAbs := by
      unfold Numeral.unsignedText numeral
      simp only [hscale, if_true, Nat.sub_zero, List.take_length]
      rw [padded, Nat.sub_eq_zero_of_le (by omega)]
      rfl
    rw [hnone]
  · have hsome : d.numeral.unsignedText = (padded d.coefficient.natAbs (d.scale + 1)).take
        ((padded d.coefficient.natAbs (d.scale + 1)).length - d.scale) ++ '.' ::
          (padded d.coefficient.natAbs (d.scale + 1)).drop
            ((padded d.coefficient.natAbs (d.scale + 1)).length - d.scale) := by
      unfold Numeral.unsignedText numeral
      simp only [hscale, if_false]
    rw [hsome, List.append_assoc]

/-- A decimal is read back from its canonical text. -/
theorem parse_canonical : parse d.canonical = .ok d := by
  rw [canonical_eq]
  refine parse_of_value _ (value_numeral d) ?_
  rw [written_numeral]
  have hlow := d.neg_lt
  have hhigh := d.lt
  omega

end Decimal

/-! ### Amounts -/

open Decimal

/-- The numeral that an amount is formatted as in a currency of `places` decimal places. -/
def amountNumeral (amount places : ℕ) : Numeral where
  sign := .unsigned
  whole := Nat.toDigits 10 (amount / 10 ^ places)
  point := if places = 0 then none else some (padded (amount % 10 ^ places) places)
  isDigit_whole := fun _ hc => isDigit_of_mem_toDigits hc
  isDigit_point := fun c hc => by
    split_ifs at hc
    · cases hc
    · exact isDigit_of_mem_padded hc
  digits_ne_nil := List.append_ne_nil_of_left_ne_nil Nat.toDigits_ne_nil _

variable {amount places : ℕ} {currency : String}

theorem places_amountNumeral (amount places : ℕ) :
    (amountNumeral amount places).places.length = places ∧
      digitsValue (amountNumeral amount places).places = amount % 10 ^ places := by
  unfold Numeral.places amountNumeral
  dsimp only
  split_ifs with hzero
  · rw [hzero, pow_zero, Nat.mod_one]
    exact ⟨rfl, rfl⟩
  · refine ⟨length_padded ?_, digitsValue_padded _ _⟩
    exact (Nat.length_toDigits_le_iff (by decide) (Nat.pos_of_ne_zero hzero)).mpr
      (Nat.mod_lt _ (by positivity))

theorem written_amountNumeral (amount places : ℕ) :
    (amountNumeral amount places).written = amount := by
  obtain ⟨hlength, hvalue⟩ := places_amountNumeral amount places
  rw [Numeral.written, digitsValue_append, hlength, hvalue]
  exact (congrArg (10 ^ places * · + _) (digitsValue_toDigits _)).trans (Nat.div_add_mod _ _)

theorem value_amountNumeral (amount places : ℕ) :
    (amountNumeral amount places).value = scaled amount places := by
  rw [Numeral.value, written_amountNumeral, (places_amountNumeral amount places).1]
  rfl

theorem formatAmountMinor_eq (h : currencyExponent currency = .ok places) :
    formatAmountMinor amount currency = .ok (String.ofList (amountNumeral amount places).text) := by
  have hsign : ¬ (amount : ℤ) < 0 := Int.not_lt.mpr (Int.natCast_nonneg _)
  unfold formatAmountMinor
  rw [h]
  simp only [bind, Except.bind, if_neg hsign, Int.natAbs_natCast, List.nil_append]
  unfold Numeral.text Numeral.unsignedText amountNumeral
  split_ifs with hzero
  · simp only [hzero, pow_zero, Nat.div_one]
    rfl
  · rfl

theorem aligned_eq_ok {d : Decimal} {scale : ℕ} {c : ℤ} (hscale : d.scale ≤ scale)
    (hten : (10 : ℤ) ^ (scale - d.scale) < 2 ^ 127) (hlow : -2 ^ 127 ≤ c) (hhigh : c < 2 ^ 127)
    (h : c = d.coefficient * 10 ^ (scale - d.scale)) : d.aligned scale = .ok c := by
  have hmultiplier : i128 (10 ^ (scale - d.scale)) = some (10 ^ (scale - d.scale)) :=
    i128_eq_some_iff.mpr ⟨rfl, le_trans (by norm_num) (by positivity : (0 : ℤ) ≤ _), hten⟩
  have hproduct : i128 (d.coefficient * 10 ^ (scale - d.scale)) = some c :=
    i128_eq_some_iff.mpr ⟨h.symm, h ▸ hlow, h ▸ hhigh⟩
  unfold aligned
  rw [if_neg (Nat.not_lt.mpr hscale), hmultiplier]
  exact congrArg (okOr · "number is too large") hproduct

/-- An amount is read back from its formatted text. -/
theorem parseAmountMinor_format (h : currencyExponent currency = .ok places)
    (hfits : (amount : ℤ) < 2 ^ 63) :
    parseAmountMinor (String.ofList (amountNumeral amount places).text) currency = .ok amount := by
  have hplaces := currencyExponent_le h
  have hreduced := reduced_strip amount places
  have hscaled := scaled_strip amount places
  obtain ⟨hle, hamount⟩ := hreduced.exists_mul_pow hscaled
  have habs := (abs_strip_le amount places).trans_eq (abs_of_nonneg (Int.natCast_nonneg _))
  obtain ⟨hlow, hhigh⟩ := abs_le.mp habs
  let d : Decimal :=
    ⟨(strip amount places).1, (strip amount places).2, by omega, by omega,
      by unfold maxDecimalScale; omega, hreduced⟩
  have hparse : Decimal.parse (String.ofList (amountNumeral amount places).text) = .ok d := by
    refine parse_of_value _ ((value_amountNumeral amount places).trans hscaled.symm) ?_
    rw [written_amountNumeral]
    omega
  have hsign : ¬ d.coefficient < 0 := fun hneg => by
    have hneg' := mul_neg_of_neg_of_pos hneg (by positivity : (0 : ℤ) < 10 ^ (places - d.scale))
    rw [← hamount] at hneg'
    omega
  have hover : ¬ places < d.scale := Nat.not_lt.mpr hle
  have haligned : d.aligned places = .ok (amount : ℤ) := by
    refine aligned_eq_ok hle ?_ (by omega) (by omega) hamount
    calc (10 : ℤ) ^ (places - d.scale) ≤ 10 ^ 3 := pow_le_pow_right₀ (by norm_num) (by omega)
      _ < 2 ^ 127 := by norm_num
  have hi64 : i64 (amount : ℤ) = some (amount : ℤ) := i64_eq_some_iff.mpr ⟨rfl, by omega, hfits⟩
  unfold parseAmountMinor toMinor toSignedMinor
  rw [h, hparse]
  simp only [bind, Except.bind, if_neg hsign, if_neg hover, haligned, mapErr]
  rw [hi64]
  rfl

/-- Reading, writing and calculating are exact where they give a result, and the numeral is read. -/
structure Exact (n : Numeral) : Prop where
  reads : ∃ d, Decimal.parse (String.ofList n.text) = .ok d ∧ d.value = n.value
  canonical : ∀ d : Decimal, Decimal.parse d.canonical = .ok d
  compares : ∀ (d e : Decimal) order, d.compare e = .ok order → order = cmp d.value e.value
  steps : ∀ (d base step : Decimal) aligns, d.isStepFrom base step = .ok aligns →
    (aligns = true ↔ ∃ k : ℤ, d.value - base.value = k * step.value)
  multiplies : ∀ (d : Decimal) amount result, d.multiplyMinor amount = .ok result →
    (result : ℚ) = d.value * amount
  minor : ∀ (d : Decimal) currency result, d.toMinor currency = .ok result →
    ∃ exponent, currencyExponent currency = .ok exponent ∧ (result : ℚ) = d.value * 10 ^ exponent
  formats : ∀ (amount : ℤ) currency exponent, 0 ≤ amount → amount < 2 ^ 63 →
    currencyExponent currency = .ok exponent → ∃ text,
      formatAmountMinor amount currency = .ok text ∧ parseAmountMinor text currency = .ok amount

/-- A numeral of a representable value is read exactly if all its digits, trailing zeros included,
are a number that an `i128` holds. -/
theorem exact_iff (n : Numeral) (h : Representable n.value) : Exact n ↔ n.written < 2 ^ 127 := by
  refine ⟨fun hexact => (parse_numeral_iff n h).mp hexact.reads, fun hfits => ?_⟩
  exact
    { reads := (parse_numeral_iff n h).mpr hfits
      canonical := parse_canonical
      compares := fun _ _ _ => compare_eq_cmp
      steps := fun _ _ _ _ => isStepFrom_iff
      multiplies := fun _ _ _ => multiplyMinor_eq
      minor := fun _ _ _ => toMinor_eq
      formats := by
        intro amount currency exponent hnonneg hlt hexponent
        lift amount to ℕ using hnonneg
        exact ⟨_, formatAmountMinor_eq hexponent, parseAmountMinor_format hexponent hlt⟩ }

/-- `+19.9900`. -/
def plusNumeral : Numeral where
  sign := .plus
  whole := ['1', '9']
  point := some ['9', '9', '0', '0']
  isDigit_whole := List.all_eq_true.mp (by decide)
  isDigit_point := List.all_eq_true.mp (by decide)
  digits_ne_nil := by decide

theorem representable_plusNumeral : Representable plusNumeral.value :=
  ⟨1999, 2, by decide, by decide, by norm_num, by norm_num, scaled_eq_iff.mpr (by decide)⟩

theorem exact_plusNumeral : Exact plusNumeral :=
  (exact_iff plusNumeral representable_plusNumeral).mpr (by decide)

/-- One, written with 39 zeros behind the dot. -/
def longOne : Numeral where
  sign := .unsigned
  whole := ['1']
  point := some (List.replicate 39 '0')
  isDigit_whole := List.all_eq_true.mp (by decide)
  isDigit_point := List.all_eq_true.mp (by decide)
  digits_ne_nil := by decide

/-- One is representable, but this text of it is not read. -/
theorem not_exact_longOne :
    longOne.text = "1.000000000000000000000000000000000000000".toList ∧
      Representable longOne.value ∧ ¬ Exact longOne := by
  have hone : Representable longOne.value :=
    ⟨1, 0, .inl rfl, Nat.zero_le _, by norm_num, by norm_num, scaled_eq_iff.mpr (by decide)⟩
  have hfits : ¬ longOne.written < 2 ^ 127 := by decide
  refine ⟨by decide, hone, fun hexact => hfits ?_⟩
  exact (parse_numeral_iff longOne hone).mp hexact.reads

end Money

end Products
