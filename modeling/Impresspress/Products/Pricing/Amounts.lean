import Impresspress.Products.Pricing.Conditions

/-!
# Amounts and quantities

The amount of one unit of a component and the number of its units, from the values of the offer's
variables.

Source: `blocks/products/offer_pricing.rs`.
-/

namespace Products

namespace Pricing

open Checked Money

variable {cal : Calendar}

/-! ### Numbers -/

def decimalInput (inputs : ValidatedInputs cal) (key : String) : Except PricingError Decimal := do
  let value ← input inputs key
  okOr value.decimal ⟨.invalidOffer, some key, "amount rule requires a numeric input"⟩

def wholeInput (inputs : ValidatedInputs cal) (key model : String) : Except PricingError ℕ := do
  let value ← decimalInput inputs key
  okOr value.asU64
    ⟨.invalidInput, some key, s!"{model} pricing requires a non-negative whole number"⟩

/-- The error of an amount that no machine integer holds. -/
def tooLarge (key : String) : PricingError :=
  ⟨.amountOverflow, some key, "calculated amount is too large"⟩

/-! ### Tiers -/

/-- `u64::MAX`, the bound of a tier that has none. -/
def u64Max : ℕ := 2 ^ 64 - 1

/-- `units` of a tier and its flat amount. -/
def checkedTierAmount (units : ℕ) (unitAmountMinor flatAmountMinor : ℤ) : Option ℤ := do
  let amount ← i128 (units * unitAmountMinor)
  i128 (amount + flatAmountMinor)

/-- The loop over the tiers: `previous` is the bound of the last tier passed, and `total` the amount
of the tiers passed. -/
def graduatedLoop (units : ℕ) : ℕ → ℤ → List PricingTier → Option ℤ
  | _, total, [] => some total
  | previous, total, tier :: tiers => do
    let upper := tier.upTo.getD u64Max
    let tierUnits := min units upper - previous
    let total ←
      if 0 < tierUnits then do
        let amount ← checkedTierAmount tierUnits tier.unitAmountMinor tier.flatAmountMinor
        i128 (total + amount)
      else some total
    if units ≤ upper then some total else graduatedLoop units upper total tiers

def tieredAmount (inputs : ValidatedInputs cal) (key : String) (tiers : List PricingTier)
    (graduated : Bool) : Except PricingError ℤ := do
  let units ← wholeInput inputs key (if graduated then "graduated" else "volume")
  let amount ←
    if graduated then okOr (graduatedLoop units 0 0 tiers) (tooLarge key)
    else do
      let tier ← okOr (tiers.find? fun tier => tier.upTo.all (units ≤ ·))
        ⟨.invalidOffer, some key, "volume tiers do not cover this input"⟩
      okOr (checkedTierAmount units tier.unitAmountMinor tier.flatAmountMinor) (tooLarge key)
  okOr (i64 amount) (tooLarge key)

/-! ### Amounts -/

def perUnitAmount (inputs : ValidatedInputs cal) (key : String) (unitAmountMinor : ℤ) :
    Except PricingError ℤ := do
  let value ← decimalInput inputs key
  let amount ← mapErr (PricingError.mk .invalidInput (some key)) (value.multiplyMinor unitAmountMinor)
  if amount < 0 then
    .error ⟨.invalidInput, some key, "per-unit amounts must not be negative"⟩
  else return amount

/-- The number of packages that hold `units`. -/
def packageCount (key : String) (units unitsPerPackage : ℕ) (rounding : PackageRounding) :
    Except PricingError ℕ :=
  let tooMany : PricingError := ⟨.amountOverflow, some key, "package quantity is too large"⟩
  match rounding with
  | .up => do
    let value ← okOr (u64 (units + (unitsPerPackage - 1))) tooMany
    if unitsPerPackage = 0 then .error tooMany else return value / unitsPerPackage
  | .exact =>
    if units % unitsPerPackage = 0 then .ok (units / unitsPerPackage)
    else .error ⟨.invalidInput, some key, "input must be an exact multiple of the package size"⟩

/-- The amount by the rule, before its sign is checked. -/
def ruleAmount (rule : AmountRule) (inputs : ValidatedInputs cal) : Except PricingError ℤ :=
  match rule with
  | .fixed unitAmountMinor => .ok unitAmountMinor
  | .perUnit key unitAmountMinor => perUnitAmount inputs key unitAmountMinor
  | .flatPlusPerUnit baseAmountMinor key unitAmountMinor => do
    let amount ← perUnitAmount inputs key unitAmountMinor
    okOr (i64 (amount + baseAmountMinor)) (tooLarge key)
  | .lookup key prices => do
    let value ← input inputs key
    let selected ← okOr value.scalar
      ⟨.invalidOffer, some key, "lookup amount requires select or text input"⟩
    okOr prices[selected]? ⟨.invalidInput, some key, "selected value has no configured price"⟩
  | .graduated key tiers => tieredAmount inputs key tiers true
  | .volume key tiers => tieredAmount inputs key tiers false
  | .package key unitsPerPackage packageAmountMinor rounding => do
    let units ← wholeInput inputs key "package"
    let packages ← packageCount key units unitsPerPackage rounding
    let amount ← okOr (i128 (packages * packageAmountMinor)) (tooLarge key)
    okOr (i64 amount) (tooLarge key)

def resolveAmount (rule : AmountRule) (inputs : ValidatedInputs cal) :
    Except PricingError ℤ := do
  let amount ← ruleAmount rule inputs
  if amount < 0 then
    .error ⟨.invalidOffer, none, "component amounts must not be negative"⟩
  else return amount

/-! ### Quantities -/

def resolveQuantity (rule : QuantityRule) (inputs : ValidatedInputs cal) :
    Except PricingError ℕ :=
  match rule with
  | .fixed value =>
    if 0 < value then .ok value
    else .error ⟨.invalidOffer, none, "component quantity must be greater than zero"⟩
  | .fromInput key minimum maximum => do
    let value ← decimalInput inputs key
    let quantity ← okOr value.asU64
      ⟨.invalidInput, some key, "quantity must be a non-negative whole number"⟩
    if quantity < minimum ∨ maximum.any (· < quantity) then
      .error ⟨.invalidInput, some key, "quantity is outside the component bounds"⟩
    else return quantity

end Pricing

end Products
