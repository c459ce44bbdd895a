import Impresspress.Products.Pricing.Evaluate
import Mathlib.Algebra.BigOperators.Intervals
import Mathlib.Algebra.Order.BigOperators.Group.Finset
import Mathlib.Data.Int.ConditionallyCompleteOrder

/-!
# Tiers

A tier holds the units behind the bound of the tier before it, up to its own bound. In a graduated
price each unit has the amount of its own tier, and each tier that is reached adds its flat amount.
In a volume price all units have the amount of the tier of the last one.

## Main definitions

* `Products.Pricing.Increasing`: the tiers that an offer may have.
* `Products.Pricing.tierOf`, `Products.Pricing.graduatedCharge`, `Products.Pricing.volumeCharge`:
  the tier of a unit, and the charges by their definition.

## Main results

* `Products.Pricing.validateTiers_iff`: which tiers are accepted.
* `Products.Pricing.graduatedLoop_eq`: the loop computes the charge, unless it fits no `i64`.
-/

namespace Products

namespace Pricing

open Checked Money

/-! ### Tiers that are accepted -/

/-- Bounds increase from `previous` on, only the last tier has none, and amounts are not
negative. -/
inductive Increasing : ℕ → List PricingTier → Prop
  | last {previous tier} (hopen : tier.upTo = none) (hunit : 0 ≤ tier.unitAmountMinor)
      (hflat : 0 ≤ tier.flatAmountMinor) : Increasing previous [tier]
  | step {previous upper tier tiers} (hbound : tier.upTo = some upper) (hlt : previous < upper)
      (hunit : 0 ≤ tier.unitAmountMinor) (hflat : 0 ≤ tier.flatAmountMinor)
      (hrest : Increasing upper tiers) : Increasing previous (tier :: tiers)

variable {previous units : ℕ} {tier : PricingTier} {tiers : List PricingTier} {total : ℤ}

theorem Increasing.ne_nil (h : Increasing previous tiers) : tiers ≠ [] := by
  cases h <;> exact List.cons_ne_nil _ _

theorem validateTiersFrom_iff (hne : tiers ≠ []) :
    validateTiersFrom previous tiers = .ok () ↔ Increasing previous tiers := by
  induction tiers generalizing previous with
  | nil => exact absurd rfl hne
  | cons tier tiers ih =>
    unfold validateTiersFrom
    split_ifs with hneg
    · refine iff_of_false nofun fun h => ?_
      cases h with
      | last hopen hunit hflat => omega
      | step hbound hlt hunit hflat hrest => omega
    · obtain ⟨hunit, hflat⟩ := not_or.mp hneg
      rw [not_lt] at hunit hflat
      cases tiers with
      | nil =>
        cases hbound : tier.upTo with
        | none => exact iff_of_true rfl (.last hbound hunit hflat)
        | some upper =>
          refine iff_of_false nofun fun h => ?_
          cases h with
          | last hopen => exact nomatch hbound.symm.trans hopen
          | step _ _ _ _ hrest => exact hrest.ne_nil rfl
      | cons next tiers =>
        cases hbound : tier.upTo with
        | none =>
          refine iff_of_false nofun fun h => ?_
          cases h with
          | step hsome => exact nomatch hbound.symm.trans hsome
        | some upper =>
          dsimp only
          split_ifs with hlt
          · rw [ih (List.cons_ne_nil _ _)]
            refine ⟨.step hbound hlt hunit hflat, fun h => ?_⟩
            cases h with
            | step hsome _ _ _ hrest =>
              obtain rfl := Option.some.inj (hbound.symm.trans hsome)
              exact hrest
          · refine iff_of_false nofun fun h => ?_
            cases h with
            | step hsome hlt' =>
              obtain rfl := Option.some.inj (hbound.symm.trans hsome)
              exact hlt hlt'

/-- Which tiers are accepted. -/
theorem validateTiers_iff : validateTiers tiers = .ok () ↔ Increasing 0 tiers := by
  unfold validateTiers
  split_ifs with hnil
  · exact iff_of_false nofun fun h => h.ne_nil hnil
  · exact validateTiersFrom_iff hnil

/-! ### Charges by their definition -/

/-- The tier that contains a unit. -/
def tierOf (tiers : List PricingTier) (unit : ℕ) : Option PricingTier :=
  tiers.find? fun tier => tier.upTo.all (unit ≤ ·)

/-- The amount of a unit. -/
def unitAmount (tiers : List PricingTier) (unit : ℕ) : ℤ :=
  (tierOf tiers unit).elim 0 (·.unitAmountMinor)

/-- A tier contains one of the units behind `previous`, up to `units`. -/
def Reached (tiers : List PricingTier) (previous units : ℕ) (tier : PricingTier) : Prop :=
  ∃ unit ∈ Finset.Ioc previous units, tierOf tiers unit = some tier

instance (tiers : List PricingTier) (previous units : ℕ) (tier : PricingTier) :
    Decidable (Reached tiers previous units tier) :=
  inferInstanceAs (Decidable (∃ unit ∈ Finset.Ioc previous units, _))

/-- The amounts of the units behind `previous`, up to `units`, and the flat amounts of the tiers
that they reach. -/
def chargeFrom (tiers : List PricingTier) (previous units : ℕ) : ℤ :=
  ∑ unit ∈ Finset.Ioc previous units, unitAmount tiers unit +
    ((tiers.filter fun tier => Reached tiers previous units tier).map (·.flatAmountMinor)).sum

/-- The amounts of the units `1..units` by their own tiers, and the flat amounts of the tiers
reached. -/
def graduatedCharge (tiers : List PricingTier) (units : ℕ) : ℤ := chargeFrom tiers 0 units

/-- The amount of the units by the tier of the last one, and its flat amount. -/
def volumeCharge (tiers : List PricingTier) (units : ℕ) : ℤ :=
  (tierOf tiers units).elim 0 fun tier => units * tier.unitAmountMinor + tier.flatAmountMinor

theorem chargeFrom_of_le (h : units ≤ previous) : chargeFrom tiers previous units = 0 := by
  have hnone : ∀ tier ∈ tiers, ¬ decide (Reached tiers previous units tier) = true := by
    intro tier _ hreached
    obtain ⟨unit, hunit, -⟩ := of_decide_eq_true hreached
    rw [Finset.Ioc_eq_empty_of_le h] at hunit
    exact absurd hunit (Finset.notMem_empty _)
  rw [chargeFrom, Finset.Ioc_eq_empty_of_le h, List.filter_eq_nil_iff.mpr hnone]
  rfl

theorem tierOf_of_le {upper unit : ℕ} (hbound : tier.upTo = some upper) (h : unit ≤ upper) :
    tierOf (tier :: tiers) unit = some tier := by
  rw [tierOf, List.find?_cons_of_pos]
  rw [hbound]
  exact decide_eq_true h

theorem tierOf_of_open {unit : ℕ} (hopen : tier.upTo = none) :
    tierOf (tier :: tiers) unit = some tier := by
  rw [tierOf, List.find?_cons_of_pos]
  rw [hopen]
  rfl

theorem tierOf_of_lt {upper unit : ℕ} (hbound : tier.upTo = some upper) (h : upper < unit) :
    tierOf (tier :: tiers) unit = tierOf tiers unit := by
  rw [tierOf, List.find?_cons_of_neg]
  · rfl
  · rw [hbound]
    exact fun hle => absurd (of_decide_eq_true hle) (Nat.not_le.mpr h)

/-- No later tier is the first one again. -/
theorem Increasing.notMem {upper : ℕ} (h : Increasing upper tiers)
    (hbound : tier.upTo = some upper) : tier ∉ tiers := by
  have hlater : ∀ t ∈ tiers, ∀ bound ∈ t.upTo, upper < bound := by
    clear hbound
    induction h with
    | last hopen =>
      intro t ht bound hmem
      rw [List.mem_singleton.mp ht, hopen] at hmem
      cases hmem
    | step hbound hlt _ _ _ ih =>
      intro t ht bound hmem
      rcases List.mem_cons.mp ht with rfl | ht
      · rw [hbound] at hmem
        cases hmem
        exact hlt
      · exact hlt.trans (ih t ht bound hmem)
  exact fun hmem => absurd (hlater tier hmem upper hbound) (Nat.lt_irrefl _)

/-- The charge of units that the first tier contains. -/
theorem chargeFrom_first (hlt : previous < units) (hnot : tier ∉ tiers)
    (hall : ∀ unit ∈ Finset.Ioc previous units, tierOf (tier :: tiers) unit = some tier) :
    chargeFrom (tier :: tiers) previous units =
      (units - previous : ℕ) * tier.unitAmountMinor + tier.flatAmountMinor := by
  have hsum : ∑ unit ∈ Finset.Ioc previous units, unitAmount (tier :: tiers) unit =
      (units - previous : ℕ) * tier.unitAmountMinor := by
    rw [Finset.sum_congr rfl fun unit hunit => by rw [unitAmount, hall unit hunit, Option.elim_some],
      Finset.sum_const, Nat.card_Ioc, nsmul_eq_mul]
  have hfirst : decide (Reached (tier :: tiers) previous units tier) = true :=
    decide_eq_true ⟨units, Finset.mem_Ioc.mpr ⟨hlt, le_rfl⟩,
      hall units (Finset.mem_Ioc.mpr ⟨hlt, le_rfl⟩)⟩
  have hrest : ∀ t ∈ tiers, ¬ decide (Reached (tier :: tiers) previous units t) = true := by
    intro t ht hreached
    obtain ⟨unit, hunit, htier⟩ := of_decide_eq_true hreached
    rw [hall unit hunit] at htier
    exact hnot (Option.some.inj htier ▸ ht)
  rw [chargeFrom, hsum,
    List.filter_cons_of_pos (p := fun t => decide (Reached (tier :: tiers) previous units t)) hfirst,
    List.filter_eq_nil_iff.mpr hrest, List.map_singleton, List.sum_singleton]

/-- The charge of units behind the first tier. -/
theorem chargeFrom_later {upper : ℕ} (hbound : tier.upTo = some upper) (hprevious : previous < upper)
    (hlt : upper < units) (hnot : tier ∉ tiers) :
    chargeFrom (tier :: tiers) previous units =
      (upper - previous : ℕ) * tier.unitAmountMinor + tier.flatAmountMinor +
        chargeFrom tiers upper units := by
  have hwithin : ∀ unit ∈ Finset.Ioc previous upper, tierOf (tier :: tiers) unit = some tier :=
    fun unit hunit => tierOf_of_le hbound (Finset.mem_Ioc.mp hunit).2
  have hbehind : ∀ unit ∈ Finset.Ioc upper units,
      tierOf (tier :: tiers) unit = tierOf tiers unit :=
    fun unit hunit => tierOf_of_lt hbound (Finset.mem_Ioc.mp hunit).1
  have hsum : ∑ unit ∈ Finset.Ioc previous units, unitAmount (tier :: tiers) unit =
      (upper - previous : ℕ) * tier.unitAmountMinor +
        ∑ unit ∈ Finset.Ioc upper units, unitAmount tiers unit := by
    rw [← Finset.sum_Ioc_consecutive _ hprevious.le hlt.le]
    congr 1
    · rw [Finset.sum_congr rfl fun unit hunit => by
        rw [unitAmount, hwithin unit hunit, Option.elim_some],
        Finset.sum_const, Nat.card_Ioc, nsmul_eq_mul]
    · exact Finset.sum_congr rfl fun unit hunit => by rw [unitAmount, hbehind unit hunit]; rfl
  have hfirst : decide (Reached (tier :: tiers) previous units tier) = true :=
    decide_eq_true ⟨upper, Finset.mem_Ioc.mpr ⟨hprevious, hlt.le⟩, tierOf_of_le hbound le_rfl⟩
  have hrest : ∀ t ∈ tiers, decide (Reached (tier :: tiers) previous units t) =
      decide (Reached tiers upper units t) := by
    intro t ht
    refine decide_eq_decide.mpr ⟨?_, ?_⟩
    · rintro ⟨unit, hunit, htier⟩
      obtain ⟨hlow, hhigh⟩ := Finset.mem_Ioc.mp hunit
      rcases Nat.lt_or_ge upper unit with hover | hover
      · exact ⟨unit, Finset.mem_Ioc.mpr ⟨hover, hhigh⟩, (tierOf_of_lt hbound hover).symm.trans htier⟩
      · rw [tierOf_of_le hbound hover] at htier
        exact absurd (Option.some.inj htier ▸ ht) hnot
    · rintro ⟨unit, hunit, htier⟩
      obtain ⟨hlow, hhigh⟩ := Finset.mem_Ioc.mp hunit
      exact ⟨unit, Finset.mem_Ioc.mpr ⟨hprevious.trans hlow, hhigh⟩,
        (tierOf_of_lt hbound hlow).trans htier⟩
  rw [chargeFrom, hsum,
    List.filter_cons_of_pos (p := fun t => decide (Reached (tier :: tiers) previous units t)) hfirst,
    List.filter_congr hrest, List.map_cons, List.sum_cons, chargeFrom]
  ring

/-- What the amounts of accepted tiers add up to is not negative. -/
theorem Increasing.nonneg (h : Increasing previous tiers) :
    ∀ t ∈ tiers, 0 ≤ t.unitAmountMinor ∧ 0 ≤ t.flatAmountMinor := by
  induction h with
  | last _ hunit hflat =>
    intro t ht
    rw [List.mem_singleton.mp ht]
    exact ⟨hunit, hflat⟩
  | step _ _ hunit hflat _ ih =>
    intro t ht
    rcases List.mem_cons.mp ht with rfl | ht
    · exact ⟨hunit, hflat⟩
    · exact ih t ht

theorem unitAmount_nonneg (h : ∀ t ∈ tiers, 0 ≤ t.unitAmountMinor ∧ 0 ≤ t.flatAmountMinor)
    (unit : ℕ) : 0 ≤ unitAmount tiers unit := by
  unfold unitAmount
  cases htier : tierOf tiers unit with
  | none => exact le_rfl
  | some t => exact (h t (List.mem_of_find?_eq_some htier)).1

/-- More units are not charged less. -/
theorem chargeFrom_mono (h : ∀ t ∈ tiers, 0 ≤ t.unitAmountMinor ∧ 0 ≤ t.flatAmountMinor)
    {fewer more : ℕ} (hle : fewer ≤ more) :
    chargeFrom tiers previous fewer ≤ chargeFrom tiers previous more := by
  have hsubset : Finset.Ioc previous fewer ⊆ Finset.Ioc previous more :=
    Finset.Ioc_subset_Ioc_right hle
  refine add_le_add (Finset.sum_le_sum_of_subset_of_nonneg hsubset fun unit _ _ =>
    unitAmount_nonneg h unit) ?_
  have hflat : ∀ amount ∈ (tiers.filter fun tier => Reached tiers previous more tier).map
      (·.flatAmountMinor), 0 ≤ amount := by
    intro amount hamount
    obtain ⟨t, ht, rfl⟩ := List.mem_map.mp hamount
    exact (h t (List.mem_filter.mp ht).1).2
  refine List.Sublist.sum_le_sum (List.Sublist.map _ ?_) hflat
  refine List.monotone_filter_right tiers fun t hreached => ?_
  obtain ⟨unit, hunit, htier⟩ := of_decide_eq_true hreached
  exact decide_eq_true ⟨unit, hsubset hunit, htier⟩

theorem chargeFrom_nonneg (h : ∀ t ∈ tiers, 0 ≤ t.unitAmountMinor ∧ 0 ≤ t.flatAmountMinor) :
    0 ≤ chargeFrom tiers previous units := by
  calc 0 = chargeFrom tiers previous 0 := (chargeFrom_of_le (Nat.zero_le previous)).symm
    _ ≤ chargeFrom tiers previous units := chargeFrom_mono h (Nat.zero_le units)

/-! ### The loops -/

/-- What the tiers passed cost, with one tier more. -/
theorem addTierAmount_eq {n : ℕ} {unit flat : ℤ} (htotal : 0 ≤ total) (hunit : 0 ≤ unit)
    (hflat : 0 ≤ flat) :
    ((checkedTierAmount n unit flat).bind fun amount => i128 (total + amount)) =
      if total + (n * unit + flat) < 2 ^ 127 then some (total + (n * unit + flat)) else none := by
  have hproduct : 0 ≤ n * unit := mul_nonneg (Int.natCast_nonneg n) hunit
  unfold checkedTierAmount
  rw [i128_of_nonneg hproduct]
  by_cases hfits : total + (n * unit + flat) < 2 ^ 127
  · rw [if_pos hfits, if_pos (by omega)]
    change ((i128 (n * unit + flat)).bind _) = _
    rw [i128_of_nonneg (by omega), if_pos (by omega), Option.bind_some,
      i128_of_nonneg (by omega), if_pos hfits]
  · rw [if_neg hfits]
    split_ifs
    · change ((i128 (n * unit + flat)).bind _) = _
      rw [i128_of_nonneg (by omega)]
      split_ifs
      · rw [Option.bind_some, i128_of_nonneg (by omega), if_neg hfits]
      · rfl
    · rfl

theorem graduatedLoop_cons (units previous : ℕ) (total : ℤ) (tier : PricingTier)
    (tiers : List PricingTier) :
    graduatedLoop units previous total (tier :: tiers) =
      (if 0 < min units (tier.upTo.getD u64Max) - previous then
        (checkedTierAmount (min units (tier.upTo.getD u64Max) - previous) tier.unitAmountMinor
          tier.flatAmountMinor).bind fun amount => i128 (total + amount)
      else some total).bind fun total =>
        if units ≤ tier.upTo.getD u64Max then some total
        else graduatedLoop units (tier.upTo.getD u64Max) total tiers := by
  rw [graduatedLoop]
  by_cases hunits : 0 < min units (tier.upTo.getD u64Max) - previous
  · simp only [if_pos hunits]
    exact (Option.bind_assoc ..).symm
  · simp only [if_neg hunits]
    rfl

/-- The loop computes the charge of the units behind `previous`, unless it fits no `i64`. -/
theorem graduatedLoop_eq (h : Increasing previous tiers) (hunits : units ≤ u64Max)
    (hprevious : previous ≤ units) (htotal : 0 ≤ total) :
    (graduatedLoop units previous total tiers).bind i64 =
      i64 (total + chargeFrom tiers previous units) := by
  induction h generalizing total with
  | @last previous tier hopen hunit hflat =>
    rw [graduatedLoop_cons, hopen, Option.getD_none, min_eq_left hunits]
    rcases hprevious.eq_or_lt with rfl | hlt
    · rw [if_neg (by omega), Option.bind_some, if_pos hunits, chargeFrom_of_le le_rfl, add_zero]
      rfl
    · rw [if_pos (by omega), addTierAmount_eq htotal hunit hflat,
        chargeFrom_first hlt List.not_mem_nil fun _ _ => tierOf_of_open hopen]
      split_ifs with hfits
      · rfl
      · exact (i64_eq_none (by omega)).symm
  | @step previous upper tier tiers hbound hupper hunit hflat hrest ih =>
    have hnot := hrest.notMem hbound
    have hnonneg := hrest.nonneg
    rw [graduatedLoop_cons, hbound, Option.getD_some]
    rcases hprevious.eq_or_lt with rfl | hlt
    · rw [if_neg (by omega), Option.bind_some, if_pos hupper.le, chargeFrom_of_le le_rfl, add_zero]
      rfl
    · rw [if_pos (by omega), addTierAmount_eq htotal hunit hflat]
      rcases Nat.lt_or_ge upper units with hover | hwithin
      · have hcharge := chargeFrom_later hbound hupper hover hnot
        have hlater : 0 ≤ chargeFrom tiers upper units := chargeFrom_nonneg hnonneg
        have hproduct : 0 ≤ (upper - previous : ℕ) * tier.unitAmountMinor :=
          mul_nonneg (Int.natCast_nonneg _) hunit
        rw [min_eq_right hover.le, hcharge]
        by_cases hfits : total +
            ((upper - previous : ℕ) * tier.unitAmountMinor + tier.flatAmountMinor) < 2 ^ 127
        · rw [if_pos hfits, Option.bind_some, if_neg (Nat.not_le.mpr hover),
            ih hover.le (by omega)]
          simp only [add_assoc]
        · rw [if_neg hfits]
          exact (i64_eq_none (by omega)).symm
      · rw [min_eq_left hwithin, chargeFrom_first hlt hnot fun unit hunit' =>
          tierOf_of_le hbound ((Finset.mem_Ioc.mp hunit').2.trans hwithin)]
        by_cases hfits : total +
            ((units - previous : ℕ) * tier.unitAmountMinor + tier.flatAmountMinor) < 2 ^ 127
        · rw [if_pos hfits, Option.bind_some, if_pos hwithin]
          rfl
        · rw [if_neg hfits]
          exact (i64_eq_none (by omega)).symm

/-- Accepted tiers contain every unit. -/
theorem Increasing.exists_tierOf (h : Increasing previous tiers) (unit : ℕ) :
    ∃ tier, tierOf tiers unit = some tier := by
  induction h with
  | last hopen => exact ⟨_, tierOf_of_open hopen⟩
  | @step previous upper tier tiers hbound hlt hunit hflat hrest ih =>
    rcases Nat.lt_or_ge upper unit with hover | hwithin
    · obtain ⟨later, hlater⟩ := ih
      exact ⟨later, (tierOf_of_lt hbound hover).trans hlater⟩
    · exact ⟨tier, tierOf_of_le hbound hwithin⟩

theorem checkedTierAmount_bind {n : ℕ} {unit flat : ℤ} (hunit : 0 ≤ unit) (hflat : 0 ≤ flat) :
    (checkedTierAmount n unit flat).bind i64 = i64 (n * unit + flat) := by
  have hamount := addTierAmount_eq (n := n) le_rfl hunit hflat
  simp only [zero_add] at hamount
  have hnonneg : 0 ≤ n * unit + flat := add_nonneg (mul_nonneg (Int.natCast_nonneg n) hunit) hflat
  unfold checkedTierAmount
  rw [i128_of_nonneg (mul_nonneg (Int.natCast_nonneg n) hunit)]
  by_cases hfits : n * unit + flat < 2 ^ 127
  · rw [if_pos (by omega)]
    change ((i128 (n * unit + flat)).bind i64) = _
    rw [i128_of_nonneg hnonneg, if_pos hfits, Option.bind_some]
  · rw [i64_eq_none (by omega)]
    split_ifs
    · change ((i128 (n * unit + flat)).bind i64) = _
      rw [i128_of_nonneg hnonneg, if_neg hfits]
      rfl
    · rfl

/-- Two checks with one error are one check. -/
theorem okOr_bind {ε α β : Type} (first : Option α) (next : α → Option β) (error : ε) :
    (okOr first error >>= fun value => okOr (next value) error) = okOr (first.bind next) error := by
  cases first <;> rfl

variable {cal : Calendar} {inputs : ValidatedInputs cal} {key : String} {value : Decimal}

theorem wholeInput_eq (hvalue : decimalInput inputs key = .ok value)
    (hunits : value.asU64 = some units) (model : String) :
    wholeInput inputs key model = .ok units := by
  unfold wholeInput
  exact bind_eq_ok.mpr ⟨value, hvalue, okOr_eq_ok.mpr hunits⟩

theorem le_u64Max_of_asU64 (h : value.asU64 = some units) : units ≤ u64Max := by
  unfold Decimal.asU64 at h
  obtain ⟨denominator, -, h⟩ := Option.bind_eq_some_iff.mp h
  split_ifs at h
  · cases h
  · obtain ⟨rfl, hlt⟩ := u64_eq_some_iff.mp h
    exact Nat.le_pred_of_lt hlt

/-- The charges of accepted tiers are those by their definition, and are refused only if they fit no
`i64`. -/
theorem tieredAmount_exact (htiers : validateTiers tiers = .ok ())
    (hvalue : decimalInput inputs key = .ok value) (hunits : value.asU64 = some units) :
    tieredAmount inputs key tiers true =
        okOr (i64 (graduatedCharge tiers units)) (tooLarge key) ∧
      Monotone (graduatedCharge tiers) ∧
        ∃ tier, tierOf tiers units = some tier ∧ tieredAmount inputs key tiers false =
          okOr (i64 (units * tier.unitAmountMinor + tier.flatAmountMinor)) (tooLarge key) := by
  have hincreasing := validateTiers_iff.mp htiers
  obtain ⟨tier, htier⟩ := hincreasing.exists_tierOf units
  have hamounts := hincreasing.nonneg tier (List.mem_of_find?_eq_some htier)
  refine ⟨?_, fun fewer more hle => chargeFrom_mono hincreasing.nonneg hle, tier, htier, ?_⟩
  · have hloop := graduatedLoop_eq hincreasing (le_u64Max_of_asU64 hunits) (Nat.zero_le units) le_rfl
    rw [zero_add] at hloop
    unfold tieredAmount
    rw [wholeInput_eq hvalue hunits]
    exact (okOr_bind ..).trans (congrArg (okOr · (tooLarge key)) hloop)
  · unfold tieredAmount
    rw [wholeInput_eq hvalue hunits]
    have hfind : (tiers.find? fun tier => tier.upTo.all (units ≤ ·)) = some tier := htier
    have hcharge := checkedTierAmount_bind (n := units) hamounts.1 hamounts.2
    simp only [bind, Except.bind, Bool.false_eq_true, if_false, hfind, okOr]
    rw [← hcharge]
    exact okOr_bind ..

/-- The amount of accepted tiers is not negative. -/
theorem tieredAmount_nonneg (htiers : Increasing 0 tiers) {graduated : Bool} {amount : ℤ}
    (h : tieredAmount inputs key tiers graduated = .ok amount) : 0 ≤ amount := by
  obtain ⟨units, hunits, hamount⟩ := bind_eq_ok.mp h
  obtain ⟨value, hvalue, hunits⟩ := bind_eq_ok.mp hunits
  obtain ⟨hgraduated, -, tier, htier, hvolume⟩ := tieredAmount_exact (validateTiers_iff.mpr htiers)
    hvalue (okOr_eq_ok.mp hunits)
  cases graduated with
  | true =>
    obtain ⟨rfl, -⟩ := i64_eq_some_iff.mp (okOr_eq_ok.mp (hgraduated.symm.trans h))
    exact chargeFrom_nonneg htiers.nonneg
  | false =>
    obtain ⟨rfl, -⟩ := i64_eq_some_iff.mp (okOr_eq_ok.mp (hvolume.symm.trans h))
    have hamounts := htiers.nonneg tier (List.mem_of_find?_eq_some htier)
    exact add_nonneg (mul_nonneg (Int.natCast_nonneg _) hamounts.1) hamounts.2

/-- Ten units of 100 with a flat amount of 50, and units of 80 behind them. -/
def exampleTiers : List PricingTier := [⟨some 10, 100, 50⟩, ⟨none, 80, 0⟩]

/-- No text is a date. -/
def noDates : Calendar where
  Date := Unit
  DateTime := Unit
  dateOrder := inferInstance
  dateTimeOrder := inferInstance
  parseDate := fun _ => none
  formatDate := fun _ => ""
  parseDateTime := fun _ => none
  formatDateTime := fun _ => ""
  debug := id

def twelveUnits : ValidatedInputs noDates :=
  (∅ : ValidatedInputs noDates).insert "units" (.integer ⟨12, by decide⟩)

theorem tieredAmount_twelve :
    tieredAmount twelveUnits "units" exampleTiers true = .ok 1210 ∧
      tieredAmount twelveUnits "units" exampleTiers false = .ok 960 := by
  have htiers : validateTiers exampleTiers = .ok () := by decide
  have hvalue : decimalInput twelveUnits "units" = .ok (Decimal.fromInteger ⟨12, by decide⟩) := by
    rfl
  have hunits : (Decimal.fromInteger ⟨12, by decide⟩).asU64 = some 12 := by decide
  obtain ⟨hgraduated, -, tier, htier, hvolume⟩ := tieredAmount_exact htiers hvalue hunits
  have hlast : tierOf exampleTiers 12 = some ⟨none, 80, 0⟩ := by decide
  obtain rfl := Option.some.inj (hlast.symm.trans htier)
  exact ⟨hgraduated.trans (by decide), hvolume.trans (by decide)⟩

end Pricing

end Products
